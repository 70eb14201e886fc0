import Cppio.Runners.Completion

/-!
# What is going to wake the tasks

With any number of runners a task that has not finished is in `m_tasks`, in the hands of one
runner, or waits for exactly one thing: a timer, a registration, or a runner that is about to
wake it.  What may break this is a step that arms nothing or displaces what is armed, and a
`wake()` that stores its `kRun` into a task while a runner is inside its `one_step`.
-/

namespace Cppio
namespace Runners

open Workers (Coroutine)

/-- The tasks for which the runner is going to call `wake()`. -/
def Pc.wakes {User Own : Type} : Pc User Own → List TaskId
  | .waking rest _ => rest.map Prod.fst
  | .storing task rest _ => task :: rest.map Prod.fst
  | .scheduling _ rest _ => rest.map Prod.fst
  | _ => []

/-- The task that the runner is going to schedule or run, or is running. -/
def Pc.holds {User Own : Type} : Pc User Own → Option TaskId
  | .scheduling task _ _ => some task
  | .popped task => some task
  | .returned task .run => some task
  | pc => pc.inside

variable {Worker User Own Local Key : Type}

/-- Something is going to wake the task. -/
inductive Due (s : State Worker User Own Key) (task : TaskId) : Prop
  | timer (pending : 0 < s.timers.pending task)
  | event (pending : 0 < s.epoll.pending task)
  | wake (worker : Worker) (wakes : task ∈ (s.pc worker).wakes)

/-- The deadline that `start_timer` computes in the step. -/
def deadline
    (program : User → UserInstr User Own Local) (s : State Worker User Own Key) :
    Label Worker User Own Key → Option Int
  | .work worker (.clock now) =>
      match s.pc worker with
      | .executing _ _ _ code =>
          match code.instr program with
          | .perform (.startTimer delay) _ => some (now + delay)
          | _ => none
      | _ => none
  | _ => none

/-- The entry of a descriptor that the step registers or closes. -/
def entryOf : Label Worker User Own Key → Option Key
  | .work _ (.epollCtl _ key) => some key
  | .close key => some key
  | _ => none

/-- Whether `epoll_ctl` fails in the step. -/
def refuses : Label Worker User Own Key → Bool
  | .work _ (.epollCtl ctl _) => !ctl.armed
  | _ => false

/-- The step arms what it hands over, and leaves what is armed: `epoll_ctl` succeeds, no
armed registration is displaced or closed, and no pending timer has the new one's deadline,
which the pool would drop. -/
def KeepsArmed
    (program : User → UserInstr User Own Local) (s : State Worker User Own Key)
    (label : Label Worker User Own Key) : Prop :=
  refuses label = false ∧
    (∀ key ∈ entryOf label, ∀ registration ∈ s.epoll.armed, registration.key ≠ key) ∧
    ∀ when ∈ deadline program s label, ∀ entry ∈ s.timers.tasks, entry.when ≠ when

instance
    [DecidableEq Key] (program : User → UserInstr User Own Local) (s : State Worker User Own Key)
    (label : Label Worker User Own Key) : Decidable (KeepsArmed program s label) :=
  inferInstanceAs (Decidable (_ ∧ _ ∧ _))

/-- A task that a runner is inside of is handed over before it waits. -/
def Promised (s : State Worker User Own Key) (task : TaskId) : Pc User Own → Prop
  | .executing _ _ _ (.park steps _) => (∃ step ∈ steps, step.isArm = true) ∨ Due s task
  | .resumed _ _ => s.state task = .wait → Due s task
  | .checked _ => s.state task = .wait → Due s task
  | _ => True

/-- A task that has not finished is going to be run. -/
structure Provided (s : State Worker User Own Key) (task : TaskId) : Prop where
  promised : ∀ worker, (s.pc worker).inside = some task → Promised s task (s.pc worker)
  present : task < s.spawned.length → (∀ value, ¬(s.frames task).FinishedWith value) →
    task ∈ s.tasks ∨ (∃ worker, (s.pc worker).holds = some task) ∨ Due s task

theorem wakes_seenPc
    (key : SocketT → Key) (coroutine : TaskId → Coroutine) (pc : Pc User Own) :
    (seenPc key coroutine pc).wakes = pc.wakes := by
  cases pc with
  | walking task curr | resuming task curr | resumed task curr =>
      rw [seenPc]
      split_ifs <;> rfl
  | _ => rfl

theorem holds_seenPc
    (key : SocketT → Key) (coroutine : TaskId → Coroutine) (pc : Pc User Own) :
    (seenPc key coroutine pc).holds = pc.holds := by
  cases pc with
  | walking task curr | resuming task curr | resumed task curr =>
      rw [seenPc]
      split_ifs <;> rfl
  | returned task result => cases result with | _ => rfl
  | _ => rfl

theorem holds_of_inside {pc : Pc User Own} {task : TaskId} (inside : pc.inside = some task) :
    pc.holds = some task := by
  cases pc with
  | returned other result => cases inside
  | scheduling | popped => cases inside
  | _ => exact inside

variable [DecidableEq Worker] [DecidableEq Key]
variable {program : User → UserInstr User Own Local} {s s' next : State Worker User Own Key}
variable {record record' : TaskId → List (Occurs User Own Local)}
variable {coroutine : TaskId → Coroutine} {delivered : TaskId → Bool}
variable {worker other : Worker} {choice : Choice Own Key} {task : TaskId} {pc : Pc User Own}

/-! ## Who has the task -/

/-- The task is at the place and has the signal. -/
structure Placed
    (s : State Worker User Own Key) (task : TaskId) (place : Workers.Place Worker)
    (signal : Workers.Signal Worker) : Prop where
  count : s.tasks.count task = if place = .queued then 1 else 0
  holder : ∀ worker, (s.pc worker).holds = some task ↔ place = .held worker
  armed : s.epoll.pending task + s.timers.pending task = if signal = .armed then 1 else 0
  wakes : ∀ worker, (s.pc worker).wakes.count task = if signal = .wake worker then 1 else 0
  nowhere : place = .nowhere → signal ≠ .none → s.state task = .wait
  queued : place = .queued → signal = .none ∧ s.state task = .run

theorem Refined.placed
    [Inhabited Key] (refined : Refined program s record) (task : TaskId) :
    ∃ place signal, Placed s task place signal := by
  obtain ⟨coroutine, delivered, refines⟩ := refined
  obtain ⟨place, signal, situated⟩ :=
    (kept_of_leads (refines.reached fun _ _ => default)).situated task
  refine ⟨place, signal, situated.count, fun worker => ?_, situated.armed, fun worker => ?_,
    fun nowhere signaled => (situated.nowhere nowhere signaled).1,
    fun queued => ⟨(situated.queued queued).1, (situated.queued queued).2.1⟩⟩
  · rw [← situated.holder worker, seen, holds_seenPc]
  · rw [← situated.wakes worker, seen, wakes_seenPc]

/-- A task in the hands of a runner is not in those of another, nor in `m_tasks`. -/
theorem Refined.alone
    [Inhabited Key] (refined : Refined program s record)
    (holds : (s.pc worker).holds = some task) :
    (∀ other, (s.pc other).holds = some task → other = worker) ∧ task ∉ s.tasks := by
  obtain ⟨place, signal, placed⟩ := refined.placed task
  obtain rfl := (placed.holder worker).mp holds
  refine ⟨fun other holds' => ?_, List.count_eq_zero.mp placed.count⟩
  exact (Workers.Place.held.inj ((placed.holder other).mp holds')).symm

/-- A task in the hands of a runner has a next step. -/
theorem Provided.of_holds
    [Inhabited Key] (worker : Worker) (refined : Refined program s record)
    (holds : (s.pc worker).holds = some task) (promised : Promised s task (s.pc worker)) :
    Provided s task where
  promised other inside := by
    obtain rfl := (refined.alone holds).1 other (holds_of_inside inside)
    exact promised
  present _ _ := Or.inr (Or.inl ⟨worker, holds⟩)

omit [DecidableEq Worker] [DecidableEq Key] in
/-- A task that no runner is inside of and that is going to be run, or has finished. -/
theorem Provided.of_outside
    (outside : ∀ worker, (s.pc worker).inside ≠ some task)
    (present : (∀ value, ¬(s.frames task).FinishedWith value) → task ∈ s.tasks ∨ Due s task) :
    Provided s task where
  promised worker inside := absurd inside (outside worker)
  present _ unfinished := (present unfinished).imp_right Or.inr

omit [DecidableEq Worker] [DecidableEq Key] in
theorem Due.same
    (due : Due s task) (pcs : s'.pc = s.pc) (timers : s'.timers = s.timers)
    (epoll : s'.epoll.pending task = s.epoll.pending task) : Due s' task := by
  cases due with
  | timer pending => exact .timer (timers ▸ pending)
  | event pending => exact .event (epoll ▸ pending)
  | wake waker woken => exact .wake waker (pcs ▸ woken)

omit [DecidableEq Key] in
/-- A step after which what the task waits for is still there, or the runner has taken it
over. -/
theorem Due.goto
    (due : Due s task) (pcs : s'.pc = s.pc)
    (timers : 0 < s.timers.pending task → 0 < s'.timers.pending task ∨ task ∈ pc.wakes)
    (epoll : 0 < s.epoll.pending task → 0 < s'.epoll.pending task ∨ task ∈ pc.wakes)
    (wakes : task ∈ (s.pc worker).wakes → task ∈ pc.wakes) :
    Due (s'.goto worker pc) task := by
  have takes : task ∈ pc.wakes → Due (s'.goto worker pc) task := fun woken =>
    .wake worker (by rw [State.goto_pc]; exact woken)
  cases due with
  | timer pending => exact (timers pending).elim (fun pending => .timer pending) takes
  | event pending => exact (epoll pending).elim (fun pending => .event pending) takes
  | wake other woken =>
      by_cases same : other = worker
      · subst same
        exact takes (wakes woken)
      · refine .wake other ?_
        rw [State.goto_pc_of_ne _ _ same, pcs]
        exact woken

omit [DecidableEq Worker] [DecidableEq Key] in
theorem Promised.imp
    (promised : Promised s task pc) (state : s'.state task = s.state task)
    (due : Due s task → Due s' task) : Promised s' task pc := by
  cases pc with
  | executing _ _ _ code =>
      cases code with
      | park steps next => exact Or.imp_right due promised
      | _ => trivial
  | resumed | checked => exact fun waits => due (promised (state.symm.trans waits))
  | _ => trivial

theorem ne_of_holds
    {held : Option TaskId} {own : TaskId} (holds : held = some own) (different : task ≠ own) :
    held ≠ some task := fun holds' =>
  different (Option.some.inj (holds'.symm.trans holds))

/-- What a step leaves of a task that it is not about. -/
structure Spares (task : TaskId) (s s' : State Worker User Own Key) : Prop where
  spawned : s'.spawned = s.spawned
  frames : s'.frames task = s.frames task
  state : s'.state task = s.state task
  tasks : task ∈ s.tasks → task ∈ s'.tasks
  pc : s'.pc = s.pc

omit [DecidableEq Worker] [DecidableEq Key] in
/-- A step of no runner. -/
theorem Provided.same
    (provided : Provided s task) (spares : Spares task s s') (due : Due s task → Due s' task) :
    Provided s' task where
  promised other inside := by
    rw [spares.pc] at inside ⊢
    exact (provided.promised other inside).imp spares.state due
  present born unfinished := by
    have later := provided.present (spares.spawned ▸ born) (spares.frames ▸ unfinished)
    rw [spares.pc]
    exact later.imp spares.tasks (Or.imp_right due)

omit [DecidableEq Key] in
/-- A step of a runner that has not the task in its hands. -/
theorem Provided.goto
    (provided : Provided s task) (spares : Spares task s s')
    (before : (s.pc worker).holds ≠ some task) (after : pc.holds ≠ some task)
    (due : Due s task → Due (s'.goto worker pc) task) :
    Provided (s'.goto worker pc) task where
  promised other inside := by
    by_cases same : other = worker
    · subst same
      rw [State.goto_pc] at inside
      exact absurd (holds_of_inside inside) after
    · rw [State.goto_pc_of_ne _ _ same, spares.pc] at inside ⊢
      exact (provided.promised other inside).imp spares.state due
  present born unfinished := by
    have later := provided.present (spares.spawned ▸ born) (spares.frames ▸ unfinished)
    refine later.imp spares.tasks (Or.imp ?_ due)
    rintro ⟨other, holds⟩
    have different : other ≠ worker := by
      rintro rfl
      exact before holds
    refine ⟨other, ?_⟩
    rw [State.goto_pc_of_ne _ _ different, spares.pc]
    exact holds

/-- What a step that a runner does for the task in its hands leaves of the others, and of
what they wait for. -/
structure About (task : TaskId) (s s' : State Worker User Own Key) : Prop where
  spawned : s'.spawned = s.spawned
  frames : ∀ other ≠ task, s'.frames other = s.frames other
  state : ∀ other ≠ task, s'.state other = s.state other
  tasks : s'.tasks = s.tasks
  timers : ∀ other, s.timers.pending other ≤ s'.timers.pending other
  epoll : ∀ other, s.epoll.pending other ≤ s'.epoll.pending other
  pc : s'.pc = s.pc

omit [DecidableEq Worker] [DecidableEq Key] in
theorem about_refl (task : TaskId) (s : State Worker User Own Key) : About task s s :=
  ⟨rfl, fun _ _ => rfl, fun _ _ => rfl, rfl, fun _ => le_rfl, fun _ => le_rfl, rfl⟩

omit [DecidableEq Worker] [DecidableEq Key] in
theorem about_setFrames
    (task : TaskId) (s : State Worker User Own Key)
    (frames : Frames (Code User Own) (Result Own)) : About task s (s.setFrames task frames) :=
  ⟨rfl, fun _ different => Function.update_of_ne different _ _, fun _ _ => rfl, rfl,
    fun _ => le_rfl, fun _ => le_rfl, rfl⟩

omit [DecidableEq Worker] [DecidableEq Key] in
theorem about_suspend
    (task : TaskId) (curr : Handle) (s : State Worker User Own Key)
    (frames : Frames (Code User Own) (Result Own)) : About task s (s.suspend task curr frames) :=
  ⟨rfl, fun _ different => Function.update_of_ne different _ _, fun _ _ => rfl, rfl,
    fun _ => le_rfl, fun _ => le_rfl, rfl⟩

/-- After the step the runner has the task in its hands, and had no other before. -/
theorem Provided.takes
    [Inhabited Key] (refined : Refined program (s'.goto worker pc) record)
    (provided : ∀ task, Provided s task) (spares : ∀ other ≠ task, Spares other s s')
    (before : ∀ other ≠ task, (s.pc worker).holds ≠ some other) (after : pc.holds = some task)
    (due : ∀ other ≠ task, Due s other → Due (s'.goto worker pc) other)
    (promised : Promised (s'.goto worker pc) task pc) (other : TaskId) :
    Provided (s'.goto worker pc) other := by
  by_cases same : other = task
  · subst same
    have holds : ((s'.goto worker pc).pc worker).holds = some other := by
      rw [State.goto_pc]
      exact after
    refine .of_holds worker refined holds ?_
    rw [State.goto_pc]
    exact promised
  · exact (provided other).goto (spares other same) (before other same) (ne_of_holds after same)
      (due other same)

/-- A runner goes on with the task in its hands. -/
theorem Provided.inHand
    [Inhabited Key] (refined : Refined program (s'.goto worker pc) record)
    (provided : ∀ task, Provided s task) (about : About task s s')
    (before : (s.pc worker).holds = some task) (after : pc.holds = some task)
    (noWakes : (s.pc worker).wakes = [])
    (promised : (Due s task → Due (s'.goto worker pc) task) →
      Promised (s'.goto worker pc) task pc) (other : TaskId) :
    Provided (s'.goto worker pc) other := by
  have due : ∀ other, Due s other → Due (s'.goto worker pc) other := by
    intro other due
    refine due.goto about.pc (fun pending => Or.inl (pending.trans_le (about.timers other)))
      (fun pending => Or.inl (pending.trans_le (about.epoll other))) fun woken => ?_
    rw [noWakes] at woken
    exact absurd woken List.not_mem_nil
  have spares : ∀ other ≠ task, Spares other s s' := fun other different =>
    ⟨about.spawned, about.frames other different, about.state other different,
      fun queued => about.tasks ▸ queued, about.pc⟩
  exact .takes refined provided spares (fun other => ne_of_holds before) after
    (fun other _ => due other) (promised (due task)) other

/-! ## On the way to suspension -/

omit [DecidableEq Worker] [DecidableEq Key] in
theorem promised_of_operates
    {curr : Handle} {frame : Frame (Code User Own) (Result Own)} {code : Code User Own}
    (operates : code.Operates) : Promised s task (.executing task curr frame code) := by
  cases code with
  | park steps next =>
      obtain ⟨⟨operation, rfl, -⟩, -⟩ := operates
      exact Or.inl operation.arms
  | _ => trivial

/-- Where the running coroutine is: not on its way to suspension, with its task in `kRun`, or
on the way, and the task is still to be handed over or was. -/
theorem Refines.course
    [Inhabited Key] {curr : Handle} {frame : Frame (Code User Own) (Result Own)}
    {code : Code User Own} (refines : Refines program s record coroutine delivered)
    (here : s.pc worker = .executing task curr frame code)
    (promised : Promised s task (s.pc worker)) :
    (Code.Operating (code.instr program) ∧ s.state task = .run) ∨
      ∃ steps next, code.instr program = Code.parkInstr next steps ∧ next.Operates ∧
        ((∃ step ∈ steps, step.isArm = true) ∨ Due s task) := by
  obtain ⟨start, -, within⟩ := refines.inside here rfl
  obtain ⟨quiet, fits⟩ := refines.fits (fun _ _ => default) here rfl
  generalize coroutine task = control at within fits
  cases within with
  | executing stacked follows calm =>
      rcases Code.operating_or_park program follows.operates with
        operating | ⟨operation, next, parks, -, operates⟩
      · refine Or.inl ⟨operating, ?_⟩
        cases code with
        | park steps next => exact absurd rfl (calm steps next)
        | _ => exact fits.2.1
      · exact Or.inr ⟨_, next, parks, operates, Or.inl operation.arms⟩
  | parking stacked leads operates below =>
      rw [here] at promised
      exact Or.inr ⟨_, _, rfl, operates, promised⟩

/-- The code that `curr.resume()` continues parks as the operations do. -/
theorem Refines.operates
    {curr : Handle} {frame : Frame (Code User Own) (Result Own)}
    (refines : Refines program s record coroutine delivered)
    (here : s.pc worker = .resuming task curr) (rests : Rests s task curr frame) :
    (∀ code, frame.point = .code code → code.Operates) ∧
      ∀ child next value, frame.point = .resumption child next →
        ((s.frames task).frame child).bind Frame.value = some value → (next value).Operates := by
  obtain ⟨start, -, within⟩ := refines.inside here rfl
  generalize coroutine task = control at within
  cases within with
  | resuming stacked enters =>
      obtain rfl := Option.some.inj (rests.found.symm.trans stacked.found)
      cases enters with
      | rests point follows =>
          refine ⟨fun code same => ?_, fun child next value same => ?_⟩
          · obtain rfl := Point.code.inj (point.symm.trans same)
            exact follows.operates
          · cases point.symm.trans same
      | resumes point younger returned follows =>
          refine ⟨fun code same => ?_, fun child next value same found => ?_⟩
          · cases point.symm.trans same
          · obtain ⟨rfl, rfl⟩ := Point.resumption.inj (point.symm.trans same)
            obtain rfl := Option.some.inj (returned.symm.trans found)
            exact follows.operates

/-! ## Every step -/

omit [DecidableEq Worker] in
/-- An effect that hands the task over arms something for it. -/
theorem due_of_arms
    {effect : Effect User Local} {outcome : effect.Outcome Own} {curr : Handle}
    {frame : Frame (Code User Own) (Result Own)} {code : Code User Own}
    {after : effect.Reply Own → Code User Own}
    (here : s.pc worker = .executing task curr frame code)
    (body : code.instr program = .perform effect after) (arms : effect.isArm = true)
    (keeps : KeepsArmed program s (.work worker choice))
    (performed : s.perform task effect choice = some (outcome, s')) :
    About task s s' ∧ Due s' task := by
  obtain ⟨succeeds, undisplaced, fresh⟩ := keeps
  cases effect with
  | register interest sock =>
      cases choice with
      | epollCtl ctl key =>
          have armed : ctl.armed = true := by simpa [refuses] using succeeds
          obtain ⟨-, rfl⟩ := Prod.mk.inj (Option.some.inj performed)
          rw [if_pos armed]
          have added : ∀ other, (s.epoll.add ⟨key, interest, task⟩).pending other =
              s.epoll.pending other + if task = other then 1 else 0 :=
            Epoll.pending_add (undisplaced key rfl)
          refine ⟨⟨rfl, fun _ _ => rfl, fun _ _ => rfl, rfl, fun _ => le_rfl, fun other => ?_, rfl⟩,
            .event ?_⟩
          · exact (Nat.le_add_right _ _).trans_eq (added other).symm
          · rw [added, if_pos rfl]
            exact Nat.succ_pos _
      | _ => cases performed
  | startTimer delay =>
      cases choice with
      | clock now =>
          have later := fresh (now + delay) (by simp only [deadline, here, body, Option.mem_def])
          simp only [State.perform] at performed
          split_ifs at performed
          obtain ⟨-, rfl⟩ := Prod.mk.inj (Option.some.inj performed)
          have added := TimerPool.pending_add later task
          refine ⟨⟨rfl, fun _ _ => rfl, fun _ _ => rfl, rfl, fun other => ?_, fun _ => le_rfl, rfl⟩,
            .timer ?_⟩
          · exact (Nat.le_add_right _ _).trans_eq (added other).symm
          · rw [added, if_pos rfl]
            exact Nat.succ_pos _
      | _ => cases performed
  | _ => cases arms

omit [DecidableEq Worker] [DecidableEq Key] in
/-- What is not seen from outside leaves what the tasks wait for. -/
theorem about_of_unseen
    (same : SameData s s')
    (unseen : ∀ key coroutine delivered,
      seen s' key coroutine delivered = seen s key coroutine delivered) (key : SocketT → Key) :
    About task s s' := by
  have unseen := unseen (fun _ => key) (fun _ => .suspended) fun _ => false
  have state : s'.state = s.state := congrArg Workers.State.state unseen
  have tasks : s'.tasks = s.tasks := congrArg Workers.State.tasks unseen
  have timers : s'.timers = s.timers := congrArg Workers.State.timers unseen
  have epoll : s'.epoll = s.epoll := congrArg Workers.State.epoll unseen
  exact ⟨same.spawned, fun _ _ => congrFun same.frames _, fun _ _ => congrFun state _, tasks,
    fun _ => timers ▸ le_rfl, fun _ => epoll ▸ le_rfl, same.pc⟩

omit [DecidableEq Worker] [DecidableEq Key] in
/-- A task that was spawned just now is in `m_tasks`. -/
theorem Provided.spawn (provided : Provided s task) (start : Start User) :
    Provided (s.spawn start) task where
  promised worker inside := (provided.promised worker inside).imp rfl fun due =>
    due.same rfl rfl rfl
  present born unfinished := by
    by_cases isNew : task = s.spawned.length
    · exact Or.inl (List.mem_append_right _ (List.mem_singleton.mpr isNew))
    · have born' : task < s.spawned.length := by
        have bound : task < (s.spawned ++ [start]).length := born
        rw [List.length_append, List.length_singleton] at bound
        exact lt_of_le_of_ne (Nat.le_of_lt_succ bound) isNew
      have frames : (s.spawn start).frames task = s.frames task :=
        Function.update_of_ne isNew _ _
      rw [frames] at unfinished
      exact (provided.present born' unfinished).imp (List.mem_append_left _)
        (Or.imp_right fun due => due.same rfl rfl rfl)

/-- An instruction of a coroutine. -/
theorem Provided.executes
    [Inhabited Key] {curr : Handle} {frame : Frame (Code User Own) (Result Own)}
    {code : Code User Own} (refines : Refines program s record coroutine delivered)
    (refined : Refined program next record')
    (keeps : KeepsArmed program s (.work worker choice)) (provided : ∀ task, Provided s task)
    (here : s.pc worker = .executing task curr frame code)
    (executes : Executes program s worker task curr frame code choice next) (other : TaskId) :
    Provided next other := by
  have holds : (s.pc worker).holds = some task := by rw [here]; rfl
  have noWakes : (s.pc worker).wakes = [] := by rw [here]; rfl
  have course := refines.course here ((provided task).promised worker (by rw [here]; rfl))
  cases executes with
  | perform body performed =>
      rw [body] at course
      rcases course with ⟨operating, -⟩ | ⟨steps, code, parks, operates, -⟩
      · cases operating with
        | perform calm operates =>
            rcases calm_of_perform calm performed with ⟨start, rfl⟩ | ⟨same, unseen⟩
            · exact .inHand refined (fun other => (provided other).spawn start) (about_refl task _)
                holds rfl noWakes (fun _ => promised_of_operates (operates _)) other
            · exact .inHand refined provided (about_of_unseen same unseen fun _ => default)
                holds rfl noWakes (fun _ => promised_of_operates (operates _)) other
      · obtain ⟨arm, rest, -, -, -, arms, after⟩ := Code.parkInstr_eq_perform parks.symm
        obtain ⟨about, due⟩ := due_of_arms here body arms keeps performed
        refine .inHand refined provided about holds rfl noWakes (fun _ => ?_) other
        rw [after]
        exact Or.inr (due.goto rfl Or.inl Or.inl fun woken => by
          rw [about.pc, noWakes] at woken
          exact absurd woken List.not_mem_nil)
  | wait body =>
      rw [body] at course
      rcases course with ⟨operating, -⟩ | ⟨steps, code, parks, operates, handed⟩
      · cases operating
      · obtain ⟨rest, rfl, rfl⟩ := Code.parkInstr_eq_wait parks.symm
        have about : About task s (s.setState task .wait) :=
          ⟨rfl, fun _ _ => rfl, fun _ different => Function.update_of_ne different _ _, rfl,
            fun _ => le_rfl, fun _ => le_rfl, rfl⟩
        refine .inHand refined provided about holds rfl noWakes (fun due => ?_) other
        refine handed.imp ?_ due
        rintro ⟨step, present, isArm⟩
        rcases List.mem_cons.mp present with rfl | later
        · cases isArm
        · exact ⟨step, later, isArm⟩
  | suspend body =>
      rw [body] at course
      refine .inHand refined provided (about_suspend task curr s _) holds rfl noWakes
        (fun due waits => ?_) other
      rcases course with ⟨-, runs⟩ | ⟨steps, code, parks, operates, handed⟩
      · cases runs.symm.trans waits
      · obtain ⟨rfl, -⟩ := Code.parkInstr_eq_suspend parks.symm
        rcases handed with ⟨step, present, -⟩ | isDue
        · exact absurd present List.not_mem_nil
        · exact due isDue
  | await body | ret body =>
      rw [body] at course
      refine .inHand refined provided (about_suspend task curr s _) holds rfl noWakes
        (fun due waits => ?_) other
      rcases course with ⟨-, runs⟩ | ⟨steps, code, parks, -⟩
      · cases runs.symm.trans waits
      · rcases Code.parkInstr_cases steps code with ⟨_, is⟩ | ⟨_, is⟩ | ⟨_, _, is⟩
        all_goals cases parks.trans is

/-- A task in `m_tasks` is in the hands of no runner. -/
theorem Refined.outside_of_queued
    [Inhabited Key] (refined : Refined program s record) (queued : task ∈ s.tasks)
    (worker : Worker) : (s.pc worker).inside ≠ some task := fun inside =>
  (refined.alone (holds_of_inside inside)).2 queued

/-- What is known of a task in the hands of a runner. -/
theorem Refines.fitsHeld
    [Inhabited Key] (refines : Refines program s record coroutine delivered)
    (here : s.pc worker = pc) (holds : pc.holds = some task) :
    ∃ quiet, Workers.Fits (seenPc (fun _ => (default : Key)) coroutine pc) quiet (s.state task)
      (coroutine task) := by
  subst here
  obtain ⟨-, -, fits⟩ := held_of_leads
    (w := seen s (fun _ _ => default) coroutine delivered)
    (refines.reached _) ((holds_seenPc _ coroutine _).trans holds)
  exact fits

/-- The task of a runner to which `one_step` has returned `kDone` has finished. -/
theorem Refined.finished
    [Inhabited Key] (refined : Refined program s record)
    (here : s.pc worker = .returned task .done) : ∃ value, (s.frames task).FinishedWith value := by
  obtain ⟨coroutine, delivered, refines⟩ := refined
  have there : (seen s (fun _ _ => (default : Key)) coroutine delivered).pc worker =
      .returned task .done := by
    simp only [seen, here, seenPc]
  have finished := (accounted_of_leads (refines.reached _)).returns worker task there
  obtain ⟨start, value, -, done, -⟩ := refines.finished finished
  exact ⟨value, done⟩

/-- A runner that is done with the task leaves no other inside of its `one_step`. -/
theorem Refined.outside_after
    [Inhabited Key] (refined : Refined program s record)
    (holds : (s.pc worker).holds = some task) (empty : pc.inside = none) (waker : Worker) :
    ((s.goto worker pc).pc waker).inside ≠ some task := by
  intro inside
  by_cases same : waker = worker
  · subst same
    rw [State.goto_pc, empty] at inside
    cases inside
  · rw [State.goto_pc_of_ne _ _ same] at inside
    exact same ((refined.alone holds).1 waker (holds_of_inside inside))

/-- A runner puts the task in its hands into `m_tasks`. -/
theorem Provided.schedule
    [Inhabited Key] (refined : Refined program ((s.schedule task).goto worker pc) record)
    (holds : (s.pc worker).holds = some task) (empty : pc.holds = none)
    {other : TaskId} (provided : Provided s other)
    (wakes : other ∈ (s.pc worker).wakes → other ∈ pc.wakes) :
    Provided ((s.schedule task).goto worker pc) other := by
  by_cases same : other = task
  · subst same
    have queued : other ∈ ((s.schedule other).goto worker pc).tasks :=
      List.mem_append_right _ (List.mem_singleton.mpr rfl)
    exact .of_outside (refined.outside_of_queued queued) fun _ => Or.inl queued
  · refine provided.goto ⟨rfl, rfl, rfl, List.mem_append_left _, rfl⟩ (ne_of_holds holds same) ?_
      fun due => due.goto rfl Or.inl Or.inl wakes
    rw [empty]
    exact nofun

/-- `one_step` returns `m_state`. -/
theorem Provided.load
    [Inhabited Key] (refines : Refines program s record coroutine delivered)
    (refined : Refined program (s.goto worker (.returned task (s.state task))) record')
    (here : s.pc worker = .checked task) (provided : ∀ task, Provided s task) (other : TaskId) :
    Provided (s.goto worker (.returned task (s.state task))) other := by
  have holds : (s.pc worker).holds = some task := by rw [here]; rfl
  have due : ∀ other, Due s other → Due (s.goto worker (.returned task (s.state task))) other :=
    fun other due => due.goto rfl Or.inl Or.inl (by rw [here]; exact id)
  have plain : ∀ other, Spares other s s := fun other => ⟨rfl, rfl, rfl, id, rfl⟩
  cases is : s.state task with
  | run =>
      rw [is] at refined due
      exact .takes refined provided (fun other _ => plain other) (fun other => ne_of_holds holds)
        rfl (fun other _ => due other) trivial other
  | done =>
      have accounted := accounted_of_leads (refines.reached fun _ _ => default)
      exact absurd is (accounted.stored task)
  | wait =>
      rw [is] at due
      by_cases same : other = task
      · subst same
        have promised := (provided other).promised worker (by rw [here]; rfl)
        rw [here] at promised
        have before : Refined program s record := ⟨coroutine, delivered, refines⟩
        exact .of_outside (before.outside_after holds rfl) fun _ =>
          Or.inr (due other (promised is))
      · exact (provided other).goto (plain other) (ne_of_holds holds same) nofun (due other)

theorem Provided.moves
    [Inhabited Key] (refines : Refines program s record coroutine delivered)
    (refined : Refined program next record')
    (outside : WakesOutside s (.work worker choice : Label Worker User Own Key))
    (keeps : KeepsArmed program s (.work worker choice)) (provided : ∀ task, Provided s task)
    (moves : Moves program s worker choice next) (other : TaskId) :
    Provided next other := by
  cases moves with
  | crash lost => exact absurd lost (refines.not_lost rfl)
  | exit here | unlock here | complete here | test here | enter here | leave here | idle here
  | erase here | dismiss here | due here | event here =>
      refine (provided other).goto ⟨rfl, rfl, rfl, id, rfl⟩ (by rw [here]; exact nofun) nofun
        fun due => due.goto rfl Or.inl Or.inl (by rw [here]; exact id)
  | drop here waiting =>
      -- what is taken from `m_tasks` does not wait
      obtain ⟨quiet, fits⟩ := refines.fitsHeld here rfl
      cases waiting.symm.trans fits.2.1
  | poll here tasks unlocked now =>
      refine (provided other).goto ⟨rfl, rfl, rfl, id, rfl⟩ (by rw [here]; exact nofun) nofun
        fun due => due.goto rfl (fun pending => ?_) Or.inl (by rw [here]; exact nofun)
      -- a timer stays in the pool, or the runner wakes its task
      have moved := s.timers.pending_getDelay now other
      by_cases woken : other ∈ (s.timers.getDelay now).woken
      · exact Or.inr (by simpa [Pc.wakes, Function.comp_def] using woken)
      · rw [List.count_eq_zero.mpr woken, Nat.zero_add] at moved
        exact Or.inl (moved ▸ pending)
  | @report waitTime here events possible =>
      refine (provided other).goto ⟨rfl, rfl, rfl, id, rfl⟩ (by rw [here]; exact nofun) nofun
        fun due => due.goto rfl Or.inl (fun pending => ?_) (by rw [here]; exact nofun)
      -- a registration stays armed, or the runner wakes its task
      have moved := s.epoll.pending_disarm possible other
      by_cases woken : other ∈ (events.map Prod.fst).map Registration.task
      · refine Or.inr ?_
        rw [List.map_map] at woken
        rw [Pc.wakes, List.map_map]
        exact woken
      · rw [List.count_eq_zero.mpr woken, Nat.zero_add] at moved
        exact Or.inl (moved ▸ pending)
  | @store task rest source here =>
      refine .takes refined provided
        (fun other different => ⟨rfl, rfl, Function.update_of_ne different _ _, id, rfl⟩)
        (fun other _ => by rw [here]; exact nofun) rfl (fun other different due => ?_) trivial other
      refine due.goto rfl Or.inl Or.inl fun woken => ?_
      rw [here] at woken
      exact (List.mem_cons.mp woken).resolve_left different
  | push here | requeue here =>
      exact .schedule refined (by rw [here]; rfl) rfl (provided other) (by rw [here]; exact id)
  | @pop task rest here first =>
      refine .takes refined provided (fun other different => ⟨rfl, rfl, rfl, fun queued => ?_, rfl⟩)
        (fun other _ => by rw [here]; exact nofun) rfl
        (fun other _ due => due.goto rfl Or.inl Or.inl (by rw [here]; exact id)) trivial other
      rw [first] at queued
      exact (List.mem_cons.mp queued).resolve_left different
  | call here runs | root here runs | descend here rests linked | innermost here rests unlinked
  | walk here =>
      exact .inHand refined provided (about_refl _ s) (by rw [here]; rfl) rfl (by rw [here]; rfl)
        (fun _ => trivial) other
  | stay here rests stops => exact absurd stops (refines.not_over here rests)
  | resume here rests point =>
      refine .inHand refined provided ?_ (by rw [here]; rfl) rfl (by rw [here]; rfl)
        (fun _ => promised_of_operates ((refines.operates here rests).1 _ point)) other
      exact ⟨rfl, fun _ _ => rfl, fun _ _ => rfl, rfl, fun _ => le_rfl, fun _ => le_rfl, rfl⟩
  | take here rests point returned =>
      refine .inHand refined provided ?_ (by rw [here]; rfl) rfl (by rw [here]; rfl)
        (fun _ => promised_of_operates ((refines.operates here rests).2 _ _ _ point returned)) other
      exact ⟨rfl, fun _ different => Function.update_of_ne different _ _, fun _ _ => rfl, rfl,
        fun _ => le_rfl, fun _ => le_rfl, rfl⟩
  | execute here executes => exact .executes refines refined keeps provided here executes other
  | @suspended task curr frame here =>
      have promised := (provided task).promised worker (by rw [here]; rfl)
      rw [here] at promised
      exact .inHand refined provided (about_refl task s) (by rw [here]; rfl) rfl (by rw [here]; rfl)
        (fun due waits => due (promised waits)) other
  | unwind here =>
      exact .inHand refined provided (about_setFrames _ s _) (by rw [here]; rfl) rfl
        (by rw [here]; rfl) (fun _ => trivial) other
  | @finish task curr frame here =>
      have holds : (s.pc worker).holds = some task := by rw [here]; rfl
      by_cases same : other = task
      · subst same
        have before : Refined program s record := ⟨coroutine, delivered, refines⟩
        refine .of_outside (before.outside_after holds rfl) fun unfinished => ?_
        obtain ⟨value, finished⟩ := refined.finished (State.goto_pc s worker _)
        exact absurd finished (unfinished value)
      · exact (provided other).goto ⟨rfl, rfl, rfl, id, rfl⟩ (ne_of_holds holds same) nofun
          fun due => due.goto rfl Or.inl Or.inl (by rw [here]; exact id)
  | ends here => exact absurd here refines.not_left
  | load here => exact .load refines refined here provided other

theorem Provided.step
    [Inhabited Key] {label : Label Worker User Own Key}
    (refined : Refined program s record) (refined' : Refined program next record')
    (outside : WakesOutside s label) (keeps : KeepsArmed program s label)
    (provided : ∀ task, Provided s task) (stepped : s.step program label = some next)
    (task : TaskId) : Provided next task := by
  obtain ⟨coroutine, delivered, refines⟩ := refined
  obtain ⟨-, ⟨worker, choice, rfl, moves⟩ | ⟨start, rfl, rfl⟩ | ⟨rfl, rfl⟩ | ⟨key, rfl, rfl⟩⟩ :=
    step_cases stepped
  · exact .moves refines refined' outside keeps provided moves task
  · exact (provided task).spawn start
  · exact (provided task).same ⟨rfl, rfl, rfl, id, rfl⟩ fun due => due.same rfl rfl rfl
  · exact (provided task).same ⟨rfl, rfl, rfl, id, rfl⟩ fun due =>
      due.same rfl rfl (Epoll.pending_forget (keeps.2.1 key rfl) task)

/-! ## Every run -/

variable {last : State Worker User Own Key} {labels : List (Label Worker User Own Key)}

theorem provided_of_run
    [Inhabited Key]
    (guarded : Machine.AllSteps (State.step program) WakesOutside
      (State.initial : State Worker User Own Key) labels)
    (keeps : Machine.AllSteps (State.step program) (KeepsArmed program) State.initial labels)
    (ran : Machine.run (State.step program) State.initial labels = some last) :
    (∃ record, Refined program last record) ∧ ∀ task, Provided last task := by
  have step : ∀ (s : State Worker User Own Key) label next,
      ((∃ record, Refined program s record) ∧ ∀ task, Provided s task) →
        (WakesOutside s label ∧ KeepsArmed program s label) → s.step program label = some next →
          (∃ record, Refined program next record) ∧ ∀ task, Provided next task := by
    rintro s label next ⟨⟨record, refined⟩, provided⟩ ⟨outside, keeps⟩ stepped
    have refined' := refined.step outside stepped
    exact ⟨⟨_, refined'⟩, .step refined refined' outside keeps provided stepped⟩
  exact Machine.invariant_of_allSteps step
    ⟨⟨_, refined_initial⟩, fun task => ⟨fun worker => nofun, nofun⟩⟩ (guarded.and keeps) ran

/-- One thing is going to wake the task: a timer, a registration, or a runner. -/
def WokenOnce (s : State Worker User Own Key) (task : TaskId) : Prop :=
  (s.timers.pending task + s.epoll.pending task = 1 ∧ ∀ worker, task ∉ (s.pc worker).wakes) ∨
    (s.timers.pending task + s.epoll.pending task = 0 ∧ ∃ worker,
      (s.pc worker).wakes.count task = 1 ∧ ∀ other ≠ worker, task ∉ (s.pc other).wakes)

/-- Where a task is that has not finished. -/
inductive Whereabouts (s : State Worker User Own Key) (task : TaskId) : Prop
  | queued (once : s.tasks.count task = 1) (runs : s.state task = .run)
      (free : ∀ worker, (s.pc worker).holds ≠ some task) (notDue : ¬Due s task)
  | held (worker : Worker) (holds : (s.pc worker).holds = some task)
      (alone : ∀ other, (s.pc other).holds = some task → other = worker)
      (unqueued : task ∉ s.tasks)
  | parked (waits : s.state task = .wait) (free : ∀ worker, (s.pc worker).holds ≠ some task)
      (unqueued : task ∉ s.tasks) (source : WokenOnce s task)

omit [DecidableEq Key] in
/-- A task without a signal is not due. -/
theorem Placed.not_due
    {place : Workers.Place Worker} (placed : Placed s task place .none) : ¬Due s task := by
  intro due
  have unarmed : s.epoll.pending task + s.timers.pending task = 0 := placed.armed
  cases due with
  | timer pending => omega
  | event pending => omega
  | wake worker woken => exact List.count_eq_zero.mp (placed.wakes worker) woken

omit [DecidableEq Key] in
theorem Placed.wokenOnce
    {place : Workers.Place Worker} {signal : Workers.Signal Worker}
    (placed : Placed s task place signal) (signaled : signal ≠ .none) : WokenOnce s task := by
  cases signal with
  | none => exact absurd rfl signaled
  | armed =>
      refine Or.inl ⟨(Nat.add_comm _ _).trans placed.armed, fun worker => ?_⟩
      exact List.count_eq_zero.mp (placed.wakes worker)
  | wake worker =>
      refine Or.inr ⟨(Nat.add_comm _ _).trans placed.armed, worker, ?_, fun other different => ?_⟩
      · rw [placed.wakes, if_pos rfl]
      · refine List.count_eq_zero.mp ((placed.wakes other).trans (if_neg fun same => ?_))
        exact different (Workers.Signal.wake.inj same).symm

/-- On every run of any number of runners on which no `wake()` stores its `kRun` into a task
while a runner is inside its `one_step`, and what is handed over is armed and stays so, a task
that has not finished is in `m_tasks` once and in `kRun`, or in the hands of one runner, or it
waits and exactly one timer, registration or runner is going to wake it. -/
theorem never_lost
    [Inhabited Key]
    (guarded : Machine.AllSteps (State.step program) WakesOutside
      (State.initial : State Worker User Own Key) labels)
    (keeps : Machine.AllSteps (State.step program) (KeepsArmed program) State.initial labels)
    (ran : Machine.run (State.step program) State.initial labels = some last)
    (born : task < last.spawned.length)
    (unfinished : ∀ value, ¬(last.frames task).FinishedWith value) :
    Whereabouts last task := by
  obtain ⟨⟨record, refined⟩, provided⟩ := provided_of_run guarded keeps ran
  obtain ⟨place, signal, placed⟩ := refined.placed task
  cases place with
  | queued =>
      obtain ⟨rfl, runs⟩ := placed.queued rfl
      refine .queued placed.count runs (fun worker holds => ?_) placed.not_due
      cases (placed.holder worker).mp holds
  | held worker =>
      have holds := (placed.holder worker).mpr rfl
      obtain ⟨alone, unqueued⟩ := refined.alone holds
      exact .held worker holds alone unqueued
  | nowhere =>
      have free : ∀ worker, (last.pc worker).holds ≠ some task := fun worker holds => by
        cases (placed.holder worker).mp holds
      have unqueued : task ∉ last.tasks := List.count_eq_zero.mp placed.count
      have due : Due last task :=
        (((provided task).present born unfinished).resolve_left unqueued).resolve_left
          fun ⟨worker, holds⟩ => free worker holds
      have signaled : signal ≠ .none := by
        rintro rfl
        exact placed.not_due due
      exact .parked (placed.nowhere rfl signaled) free unqueued (placed.wokenOnce signaled)

/-- Two tasks take a nap, and both runners are done with them. -/
def bothNap : List (Label Bool Bool Unit Nat) :=
  [.spawn (.user true), .spawn (.user true)] ++ startRound true 0 0 ++ startRound false 0 0 ++
    goes true 1 ++ goes false 1 ++ dozes true 0 ++ dozes false 1 ++ goes true 4 ++ goes false 4

theorem never_lost_bothNap :
    ∃ last, Machine.run (State.step Reactor.napping.program) State.initial bothNap = some last ∧
      last.spawned.length = 2 ∧ last.tasks = [] ∧ Whereabouts last 1 := by
  have guarded : Machine.AllSteps (State.step Reactor.napping.program) WakesOutside
      State.initial bothNap := by
    decide +kernel
  have keeps : Machine.AllSteps (State.step Reactor.napping.program)
      (KeepsArmed Reactor.napping.program) State.initial bothNap := by
    decide +kernel
  obtain ⟨last, ran, two, noTask, frame, found, suspended⟩ : ∃ last,
      Machine.run (State.step Reactor.napping.program) State.initial bothNap = some last ∧
        last.spawned.length = 2 ∧ last.tasks = [] ∧
        ∃ frame, (last.frames 1).frame rootHandle = some frame ∧ frame.done = false :=
    ⟨_, rfl, rfl, rfl, _, rfl, rfl⟩
  refine ⟨last, ran, two, noTask, never_lost guarded keeps ran (by rw [two]; decide) ?_⟩
  rintro value ⟨own, found', final, -⟩
  obtain rfl := Option.some.inj (found.symm.trans found')
  rw [Frame.done, final] at suspended
  cases suspended

end Runners
end Cppio
