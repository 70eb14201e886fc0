import Cppio.Reactor.Records
import Cppio.Runners.Image
import Cppio.Runners.Stages

/-!
# Runs of the runners

On every run of the runners on which no `wake()` stores its `kRun` into a task that a runner
is inside of, each step is one of the machine that leaves open what coroutines compute, and
what a task does is what an execution of the code that it was spawned with does.
-/

namespace Cppio
namespace Runners

open Workers (Coroutine)
open Reactor (part)

variable {Worker User Own Local Key : Type} [DecidableEq Worker] [DecidableEq Key]

/-! ## What the tasks do -/

/-- What a task does in a step. -/
def passed
    (program : User → UserInstr User Own Local) (s : State Worker User Own Key) :
    Label Worker User Own Key → List (TaskId × Occurs User Own Local)
  | .work worker choice =>
      match s.pc worker with
      | .executing task _ _ code =>
          match code.instr program, choice with
          | .perform effect _, choice =>
              match s.perform task effect choice with
              | some (outcome, _) => [(task, .performed effect outcome)]
              | none => []
          | .wait _, .go => [(task, .waited)]
          | _, _ => []
      | _ => []
  | _ => []

/-- What the tasks do on a run. -/
def log (program : User → UserInstr User Own Local) :
    State Worker User Own Key → List (Label Worker User Own Key) →
      List (TaskId × Occurs User Own Local)
  | _, [] => []
  | s, label :: labels =>
      passed program s label ++
        match s.step program label with
        | some next => log program next labels
        | none => []

/-- The records of the tasks, after they have done these things. -/
def extend
    (record : TaskId → List (Occurs User Own Local)) (log : List (TaskId × Occurs User Own Local)) :
    TaskId → List (Occurs User Own Local) :=
  fun task => record task ++ part task log

omit [DecidableEq Worker] [DecidableEq Key] in
theorem extend_nil (record : TaskId → List (Occurs User Own Local)) :
    extend record [] = record := by
  funext task
  exact List.append_nil _

/-! ## The machine that leaves open what coroutines compute -/

/-- Where the runners are, seen from outside, and where their tasks are. -/
structure Refines
    (program : User → UserInstr User Own Local) (s : State Worker User Own Key)
    (record : TaskId → List (Occurs User Own Local)) (coroutine : TaskId → Coroutine)
    (delivered : TaskId → Bool) : Prop where
  defined : s.undefined = false
  reached : ∀ key, Leads Workers.State.initial (seen s key coroutine delivered)
  stages : ∀ task, Stage program s task (record task) (coroutine task)

/-- The runners refine the other machine. -/
def Refined
    (program : User → UserInstr User Own Local) (s : State Worker User Own Key)
    (record : TaskId → List (Occurs User Own Local)) : Prop :=
  ∃ coroutine delivered, Refines program s record coroutine delivered

theorem kept_of_leads
    {w : Workers.State Worker Key} (leads : Leads Workers.State.initial w) : Workers.Kept w := by
  obtain ⟨labels, guarded, ran⟩ := leads
  exact Machine.invariant_of_allSteps
    (fun _ _ _ kept outside stepped => Workers.Kept.step kept outside stepped)
    Workers.kept_initial guarded ran

/-- A task in a worker's hands is in those of no other, and fits where the worker is. -/
theorem held_of_leads
    {w : Workers.State Worker Key} {worker : Worker} {task : TaskId}
    (leads : Leads Workers.State.initial w) (holds : (w.pc worker).holds = some task) :
    task < w.spawned ∧ (∀ other, (w.pc other).holds = some task → other = worker) ∧
      ∃ quiet, Workers.Fits (w.pc worker) quiet (w.state task) (w.coroutine task) := by
  obtain ⟨place, signal, situated⟩ := (kept_of_leads leads).situated task
  have held := (situated.holder worker).mp holds
  refine ⟨?_, fun other holds' => ?_, _, situated.held worker held⟩
  · by_contra unborn
    obtain ⟨nowhere, -⟩ := situated.fresh (Nat.le_of_not_lt unborn)
    cases held.symm.trans nowhere
  · exact Workers.Place.held.inj (((situated.holder other).mp holds').symm.trans held)

section

variable {program : User → UserInstr User Own Local} {s next : State Worker User Own Key}
variable {record : TaskId → List (Occurs User Own Local)} {coroutine : TaskId → Coroutine}
variable {delivered : TaskId → Bool} {worker : Worker} {task : TaskId}
variable {pc : Pc User Own}

/-- What a step leaves of the tasks that it is not about. -/
structure Elsewhere
    (s next : State Worker User Own Key) (worker : Worker) (pc : Pc User Own) (task : TaskId) :
    Prop where
  spawned : next.spawned = s.spawned
  frames : next.frames task = s.frames task
  resumed : ∀ handle, (task, handle) ∈ next.resumed ↔ (task, handle) ∈ s.resumed
  pcs : next.pc = Function.update s.pc worker pc
  before : (s.pc worker).inside ≠ some task
  after : pc.inside ≠ some task

omit [DecidableEq Key] in
theorem Elsewhere.same (elsewhere : Elsewhere s next worker pc task) : SameFor task s next where
  spawned := elsewhere.spawned
  frames := elsewhere.frames
  resumed := elsewhere.resumed
  pcs other inside := by
    rw [elsewhere.pcs] at inside ⊢
    by_cases same : other = worker
    · subst same
      rw [Function.update_self] at inside
      exact absurd inside (not_or.mpr ⟨elsewhere.after, elsewhere.before⟩)
    · exact Function.update_of_ne same _ _

/-- A step about no task. -/
theorem Refines.apart
    (delivered' : TaskId → Bool)
    (refines : Refines program s record coroutine delivered) (defined : next.undefined = false)
    (elsewhere : ∀ task, Elsewhere s next worker pc task)
    (leads : ∀ key, Leads (seen s key coroutine delivered) (seen next key coroutine delivered')) :
    Refined program next record :=
  ⟨coroutine, delivered', defined, fun key => (refines.reached key).trans (leads key),
    fun task => (refines.stages task).congr (elsewhere task).same⟩

/-- A step about one task. -/
theorem Refines.about
    {coroutine' : Coroutine} {events : List (Occurs User Own Local)}
    (delivered' : TaskId → Bool)
    (refines : Refines program s record coroutine delivered) (defined : next.undefined = false)
    (elsewhere : ∀ other ≠ task, Elsewhere s next worker pc other)
    (own : Stage program next task (record task ++ events) coroutine')
    (leads : ∀ key, Leads Workers.State.initial
      (seen next key (Function.update coroutine task coroutine') delivered')) :
    Refined program next (extend record (events.map (Prod.mk task))) := by
  refine ⟨_, delivered', defined, leads, fun other => ?_⟩
  by_cases same : other = task
  · subst same
    rw [Function.update_self, extend, Reactor.part_map_same]
    exact own
  · rw [Function.update_of_ne same, extend, Reactor.part_map_of_ne (Ne.symm same),
      List.append_nil]
    exact (refines.stages other).congr (elsewhere other same).same

/-! ## Steps outside of `one_step` -/

/-- The data that the tasks' stages depend on are the same. -/
structure SameData (s s' : State Worker User Own Key) : Prop where
  spawned : s'.spawned = s.spawned
  frames : s'.frames = s.frames
  resumed : s'.resumed = s.resumed
  pc : s'.pc = s.pc
  undefined : s'.undefined = s.undefined

omit [DecidableEq Key] in
theorem SameData.elsewhere
    {s' : State Worker User Own Key} (same : SameData s s')
    (before : (s.pc worker).inside ≠ some task) (after : pc.inside ≠ some task) :
    Elsewhere s (s'.goto worker pc) worker pc task where
  spawned := same.spawned
  frames := congrFun same.frames task
  resumed handle := by
    change _ ∈ s'.resumed ↔ _
    rw [same.resumed]
  pcs := by
    change Function.update s'.pc worker pc = _
    rw [same.pc]
  before := before
  after := after

omit [DecidableEq Key] in
theorem SameData.elsewhere_of_none
    {s' : State Worker User Own Key} (same : SameData s s')
    (before : (s.pc worker).inside = none) (after : pc.inside = none) (task : TaskId) :
    Elsewhere s (s'.goto worker pc) worker pc task := by
  refine same.elsewhere (fun inside => ?_) fun inside => ?_
  · cases before.symm.trans inside
  · cases after.symm.trans inside

/-- A runner that is not inside a task's `one_step` takes a step. -/
theorem Refines.goes
    {s' : State Worker User Own Key} (delivered' : TaskId → Bool) (choice : Workers.Choice Key)
    (refines : Refines program s record coroutine delivered) (same : SameData s s')
    (before : (s.pc worker).inside = none) (after : pc.inside = none)
    (calm : ∀ (key : SocketT → Key) task rest source,
      seenPc key coroutine (s.pc worker) ≠ .waking none (task :: rest) source)
    (works : ∀ key, (seen s key coroutine delivered).work worker choice =
      some ((seen s' key coroutine delivered').goto worker (seenPc (key worker) coroutine pc))) :
    Refined program (s'.goto worker pc) record := by
  refine refines.apart delivered' (same.undefined.trans refines.defined)
    (same.elsewhere_of_none before after) fun key => ?_
  rw [seen_goto s' key delivered' pc fun _ _ _ _ => rfl]
  exact leads_of_work worker choice refines.defined (calm (key worker)) (works key)

/-- A step that the other machine does not see. -/
theorem Refines.stutters
    {s' : State Worker User Own Key}
    (refines : Refines program s record coroutine delivered) (same : SameData s s')
    (before : (s.pc worker).inside = none) (after : pc.inside = none)
    (unseen : ∀ key, seen s' key coroutine delivered = seen s key coroutine delivered)
    (stays : ∀ key : SocketT → Key,
      seenPc key coroutine pc = seenPc key coroutine (s.pc worker)) :
    Refined program (s'.goto worker pc) record := by
  refine refines.apart delivered (same.undefined.trans refines.defined)
    (same.elsewhere_of_none before after) fun key => ?_
  have own := goto_self (seen s key coroutine delivered) worker
  rw [seen_goto s' key delivered pc fun _ _ _ _ => rfl, unseen, stays]
  exact own.symm ▸ .refl _ _ _

/-- A `wake()` stores its `kRun`. -/
theorem Refines.store
    {rest : List (TaskId × Option Bool)} {source : Workers.Source}
    (refines : Refines program s record coroutine delivered)
    (here : s.pc worker = .storing task rest source)
    (outside : ∀ other, (s.pc other).inside ≠ some task) :
    Refined program ((s.setState task .run).goto worker (.scheduling task rest source)) record := by
  have same : SameData s (s.setState task .run) := ⟨rfl, rfl, rfl, rfl, rfl⟩
  refine refines.apart delivered refines.defined
    (same.elsewhere_of_none (by rw [here]; rfl) rfl) fun key => ?_
  have there : (seen s key coroutine delivered).pc worker =
      .waking none (task :: rest.map Prod.fst) source := by
    simp only [seen, here, seenPc]
  rw [seen_goto (s.setState task .run) key delivered _ fun _ _ _ _ => rfl]
  have guarded : Workers.WakesOutside (seen s key coroutine delivered) (.work worker .go) := by
    rintro other _ woken later source' same there' inside
    obtain ⟨rfl, -⟩ := Workers.Label.work.inj same
    rw [there] at there'
    obtain ⟨-, tasks, -⟩ := Workers.Pc.waking.inj there'
    obtain ⟨rfl, -⟩ := List.cons.inj tasks
    rw [seen, inside_seenPc]
    exact outside inside
  have stepped : (seen s key coroutine delivered).step (.work worker .go) =
      some (((seen s key coroutine delivered).setState task .run).goto worker
        (.waking (some task) (rest.map Prod.fst) source)) := by
    have defined : ¬(seen s key coroutine delivered).undefined = true :=
      Bool.eq_false_iff.mp refines.defined
    rw [Workers.State.step, if_neg defined]
    simp only [Workers.State.work, there]
  exact Machine.reachableBy_of_step guarded stepped

/-- The steps of `run`, `get_delay`, `epoll::run` and `process_tasks`, apart from its call of
`one_step`. -/
theorem Refines.loops
    {choice : Choice Own Key}
    (refines : Refines program s record coroutine delivered)
    (outside : WakesOutside s (.work worker choice : Label Worker User Own Key))
    (before : (s.pc worker).inside = none) (after : (next.pc worker).inside = none)
    (moves : Moves program s worker choice next) :
    Refined program next record := by
  have plain : SameData s s := ⟨rfl, rfl, rfl, rfl, rfl⟩
  cases moves with
  | crash lost =>
      obtain ⟨task, inside⟩ := lost.inside
      cases before.symm.trans inside
  | exit here noTask now =>
      refine refines.goes delivered (.clock 0) plain before rfl
        (by simp [here, seenPc]) fun key => ?_
      simp only [Workers.State.work, seen, here, seenPc, noTask, if_true]
  | poll here tasks unlocked now =>
      refine refines.goes delivered (.clock now) ⟨rfl, rfl, rfl, rfl, rfl⟩
        before rfl (by simp [here, seenPc]) fun key => ?_
      simp only [Workers.State.work, seen, here, seenPc, tasks, unlocked, if_false,
        Bool.false_eq_true, List.map_map, Function.comp_def, List.map_id']
  | due here =>
      refine refines.stutters plain before rfl (fun _ => rfl) fun key => ?_
      rw [here]
      rfl
  | event here =>
      refine refines.stutters ⟨rfl, rfl, rfl, rfl, rfl⟩ before rfl (fun _ => rfl) fun key => ?_
      rw [here]
      rfl
  | store here => exact refines.store here (outside worker _ _ _ _ rfl here)
  | @report waitTime here events possible =>
      refine refines.goes
        (fun task => delivered task || decide (task ∈ (events.map Prod.fst).map Registration.task))
        (.report (events.map Prod.fst)) ⟨rfl, rfl, rfl, rfl, rfl⟩ before rfl
        (by simp [here, seenPc]) fun key => ?_
      simp only [Workers.State.work, seen, here, seenPc, possible, if_true]
      rw [show (events.map delivery).map Prod.fst = (events.map Prod.fst).map Registration.task by
        rw [List.map_map, List.map_map]
        rfl]
      rfl
  | push here | unlock here =>
      refine refines.goes delivered .go ⟨rfl, rfl, rfl, rfl, rfl⟩
        before rfl (by simp [here, seenPc]) fun key => ?_
      simp only [Workers.State.work, seen, here, seenPc]
      rfl
  | complete here | test here =>
      refine refines.goes delivered .go plain
        before rfl (by simp [here, seenPc]) fun key => ?_
      simp only [Workers.State.work, seen, here, seenPc]
      rfl
  | enter here test | leave here test =>
      refine refines.goes delivered .go plain
        before rfl (by simp [here, seenPc]) fun key => ?_
      simp only [Workers.State.work, seen, here, seenPc, test, if_true, Bool.false_eq_true,
        if_false]
  | idle here test =>
      refine refines.goes delivered .go plain
        before rfl (by simp [here, seenPc]) fun key => ?_
      simp only [Workers.State.work, seen, here, seenPc, test]
  | pop here first =>
      refine refines.goes delivered .go ⟨rfl, rfl, rfl, rfl, rfl⟩
        before rfl (by simp [here, seenPc]) fun key => ?_
      simp only [Workers.State.work, seen, here, seenPc, first]
  | drop here waiting =>
      refine refines.goes delivered .go plain
        before rfl (by simp [here, seenPc]) fun key => ?_
      simp only [Workers.State.work, seen, here, seenPc, waiting, if_true]
  | requeue here =>
      refine refines.goes delivered .go ⟨rfl, rfl, rfl, rfl, rfl⟩
        before rfl (by simp [here, seenPc]) fun key => ?_
      simp only [Workers.State.work, seen, here, seenPc]
      rfl
  | erase here | dismiss here =>
      refine refines.goes delivered .go ⟨rfl, rfl, rfl, rfl, rfl⟩
        before rfl (by simp [here, seenPc]) fun key => ?_
      simp only [Workers.State.work, seen, here, seenPc]
  | call here =>
      rw [State.goto_pc] at after
      cases after
  | root here | descend here | innermost here | stay here | walk here | resume here | take here
  | execute here | suspended here | finish here | unwind here | ends here | load here =>
      rw [here] at before
      cases before

end

end Runners
end Cppio
