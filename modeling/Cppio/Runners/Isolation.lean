import Cppio.Runners.Instructions

/-!
# The runners isolate the tasks

On every run of any number of runners on which no `wake()` stores its `kRun` into a task
while a runner is inside its `one_step`, the runners do what the machine that leaves open
what coroutines compute allows, and each task does what an execution of its own code does.
-/

namespace Cppio
namespace Runners

open Workers (Coroutine)

variable {Worker User Own Local Key : Type} [DecidableEq Worker] [DecidableEq Key]
variable {program : User → UserInstr User Own Local} {s next last : State Worker User Own Key}
variable {record : TaskId → List (Occurs User Own Local)} {coroutine : TaskId → Coroutine}
variable {delivered : TaskId → Bool} {worker : Worker} {choice : Choice Own Key}
variable {label : Label Worker User Own Key} {labels : List (Label Worker User Own Key)}

/-! ## Every step -/

omit [DecidableEq Worker] in
/-- A runner that is in no coroutine does nothing for its task. -/
theorem passed_of_between (between : (s.pc worker).Between) :
    passed program s (.work worker choice) = [] := by
  simp only [passed]
  split
  · next there => exact absurd there (between _ _ _ _)
  · rfl

theorem between_of_outside {pc : Pc User Own} (outside : pc.inside = none) : pc.Between := by
  rintro task handle frame here rfl
  cases outside

variable [Inhabited Key]

theorem Refines.moves
    (refines : Refines program s record coroutine delivered)
    (outside : WakesOutside s (.work worker choice : Label Worker User Own Key))
    (moves : Moves program s worker choice next) :
    Refined program next (extend record (passed program s (.work worker choice))) := by
  have loops : (s.pc worker).inside = none → (next.pc worker).inside = none →
      Refined program next (extend record (passed program s (.work worker choice))) := by
    intro before after
    rw [passed_of_between (between_of_outside before), extend_nil]
    exact refines.loops outside before after moves
  have between : (s.pc worker).Between → Refined program next record →
      Refined program next (extend record (passed program s (.work worker choice))) := by
    intro between refined
    rwa [passed_of_between between, extend_nil]
  cases moves with
  | crash lost => exact absurd lost (refines.not_lost rfl)
  | exit here | poll here | due here | event here | store here | push here | unlock here
  | complete here | test here | report here | enter here | leave here | idle here | pop here
  | drop here | requeue here | erase here | dismiss here =>
      exact loops (by rw [here]; rfl) (by rw [State.goto_pc]; rfl)
  | call here runs => exact between (by rw [here]; exact nofun) (refines.call here runs)
  | root here runs => exact between (by rw [here]; exact nofun) (refines.root here runs)
  | descend here rests linked =>
      exact between (by rw [here]; exact nofun) (refines.descend here rests linked)
  | innermost here rests unlinked =>
      exact between (by rw [here]; exact nofun) (refines.innermost here rests unlinked)
  | stay here rests stops => exact absurd stops (refines.not_over here rests)
  | walk here _ _ runs => exact between (by rw [here]; exact nofun) (refines.walk here runs)
  | resume here rests point =>
      exact between (by rw [here]; exact nofun) (refines.resume here rests point)
  | take here rests point returned =>
      exact between (by rw [here]; exact nofun) (refines.take here rests point returned)
  | execute here executes => exact refines.executes here executes
  | suspended here rests unfinished =>
      exact between (by rw [here]; exact nofun) (refines.suspended here rests unfinished)
  | finish here rests finished unlinked =>
      exact between (by rw [here]; exact nofun) (refines.finish here rests finished unlinked)
  | unwind here rests finished linked restsOuter =>
      exact between (by rw [here]; exact nofun)
        (refines.unwind here rests finished linked restsOuter)
  | ends here => exact absurd here refines.not_left
  | load here => exact between (by rw [here]; exact nofun) (refines.load here)

omit [DecidableEq Worker] [DecidableEq Key] [Inhabited Key] in
theorem sameFor_of_data (same : SameData s next) (task : TaskId) : SameFor task s next where
  spawned := same.spawned
  frames := congrFun same.frames task
  resumed handle := by rw [same.resumed]
  pcs worker _ := congrFun same.pc worker

omit [Inhabited Key] in
/-- A step of another thread that starts no task. -/
theorem Refines.outside
    (outer : Workers.Label Worker Key) (refines : Refines program s record coroutine delivered)
    (same : SameData s next) (other : ∀ worker choice, outer ≠ .work worker choice)
    (stepped : ∀ key, (seen s key coroutine delivered).step outer =
      some (seen next key coroutine delivered)) : Refined program next record :=
  ⟨coroutine, delivered, same.undefined.trans refines.defined,
    fun key => (refines.reached key).trans (leads_of_outside other (stepped key)),
    fun task => (refines.stages task).congr (sameFor_of_data same task)⟩

theorem Refined.step
    (refined : Refined program s record) (outside : WakesOutside s label)
    (stepped : s.step program label = some next) :
    Refined program next (extend record (passed program s label)) := by
  obtain ⟨coroutine, delivered, refines⟩ := refined
  have seenDefined : ∀ key, ¬(seen s key coroutine delivered).undefined = true := fun _ =>
    Bool.eq_false_iff.mp refines.defined
  obtain ⟨-, ⟨worker, choice, rfl, moves⟩ | ⟨start, rfl, rfl⟩ | ⟨rfl, rfl⟩ | ⟨key, rfl, rfl⟩⟩ :=
    step_cases stepped
  · exact refines.moves outside moves
  · rw [show passed program s (.spawn start) = [] from rfl, extend_nil]
    exact ⟨coroutine, delivered, refines.spawn start⟩
  · rw [show passed program s .stop = [] from rfl, extend_nil]
    refine refines.outside .stop ⟨rfl, rfl, rfl, rfl, rfl⟩ (by simp) fun key => ?_
    rw [Workers.State.step, if_neg (seenDefined key)]
    rfl
  · rw [show passed program s (.close key) = [] from rfl, extend_nil]
    refine refines.outside (.close key) ⟨rfl, rfl, rfl, rfl, rfl⟩ (by simp) fun found => ?_
    rw [Workers.State.step, if_neg (seenDefined found)]
    rfl

/-! ## Every run -/

omit [DecidableEq Worker] [DecidableEq Key] [Inhabited Key] in
theorem extend_extend
    (record : TaskId → List (Occurs User Own Local))
    (first second : List (TaskId × Occurs User Own Local)) :
    extend (extend record first) second = extend record (first ++ second) := by
  funext task
  simp only [extend, Reactor.part_append, List.append_assoc]

theorem Refined.run
    (refined : Refined program s record)
    (guarded : Machine.AllSteps (State.step program) WakesOutside s labels)
    (ran : Machine.run (State.step program) s labels = some last) :
    Refined program last (extend record (log program s labels)) := by
  induction labels generalizing s record with
  | nil =>
      obtain rfl := Option.some.inj ran
      rw [log, extend_nil]
      exact refined
  | cons label labels inductionHypothesis =>
      rw [Machine.run_cons, Option.bind_eq_some_iff] at ran
      obtain ⟨next, stepped, later⟩ := ran
      obtain ⟨outside, guardedLater⟩ := guarded next stepped
      have refinedLater := inductionHypothesis (refined.step outside stepped) guardedLater later
      rw [extend_extend] at refinedLater
      rw [log, stepped]
      exact refinedLater

omit [Inhabited Key] in
theorem refined_initial :
    Refined program (State.initial : State Worker User Own Key) fun _ => [] := by
  refine ⟨fun _ => .suspended, fun _ => false, rfl, fun key => ?_, fun task => ?_⟩
  · exact .refl _ _ _
  · exact .unborn (Nat.zero_le task) (fun worker => nofun) (fun handle => Finset.notMem_empty _)
      rfl rfl

theorem refined_of_run
    (guarded : Machine.AllSteps (State.step program) WakesOutside
      (State.initial : State Worker User Own Key) labels)
    (ran : Machine.run (State.step program) State.initial labels = some last) :
    Refined program last fun task =>
      Reactor.part task (log program State.initial labels) :=
  refined_initial.run guarded ran

omit [DecidableEq Worker] [DecidableEq Key] [Inhabited Key] in
/-- A coroutine runs where a runner executes it. -/
theorem Stage.mem_resumed
    {task : TaskId} {events : List (Occurs User Own Local)} {control : Coroutine}
    (stage : Stage program s task events control) (handle : Handle) :
    (task, handle) ∈ s.resumed ↔
      ∃ worker frame here, s.pc worker = .executing task handle frame here := by
  have elsewhere : (∀ worker, (s.pc worker).inside ≠ some task) →
      (∀ handle, (task, handle) ∉ s.resumed) → ((task, handle) ∈ s.resumed ↔
        ∃ worker frame here, s.pc worker = .executing task handle frame here) := by
    intro outside idle
    refine ⟨fun busy => absurd busy (idle handle), ?_⟩
    rintro ⟨worker, frame, here, there⟩
    exact absurd (by rw [there]; rfl) (outside worker)
  cases stage with
  | unborn _ outside idle | waits _ outside idle | finished _ outside idle =>
      exact elsewhere outside idle
  | @inside start worker _ _ alone busy =>
      rw [busy]
      refine ⟨fun ⟨frame, here, there⟩ => ⟨worker, frame, here, there⟩, ?_⟩
      rintro ⟨other, frame, here, there⟩
      obtain rfl := alone other (by rw [there]; rfl)
      exact ⟨frame, here, there⟩

/-- Nothing undefined has happened, each task is in the hands of one runner at most, and a
coroutine runs where a runner executes it only. -/
structure Exclusive (s : State Worker User Own Key) : Prop where
  defined : s.undefined = false
  alone : ∀ worker other task, (s.pc worker).inside = some task →
    (s.pc other).inside = some task → worker = other
  resumed : ∀ task handle, (task, handle) ∈ s.resumed ↔
    ∃ worker frame here, s.pc worker = .executing task handle frame here

/-- The task has finished with the value that an execution of its code returns, or such an
execution is suspended. -/
def FollowsOwnCode
    (program : User → UserInstr User Own Local) (s : State Worker User Own Key) (task : TaskId)
    (start : Start User) (record : List (Occurs User Own Local)) : Prop :=
  (∃ value, (s.frames task).FinishedWith value ∧
      Recording.Recorded program start.code record (some value)) ∨
    ((∀ value, ¬(s.frames task).FinishedWith value) ∧
      (record = [] ∨ Recording.Recorded program start.code record none))

omit [Inhabited Key] in
theorem Refines.exclusive (refines : Refines program s record coroutine delivered) :
    Exclusive s where
  defined := refines.defined
  alone worker other task inside inside' := by
    obtain ⟨start, inside⟩ := (refines.stages task).of_inside inside
    exact (inside.alone other inside').symm
  resumed task handle := (refines.stages task).mem_resumed handle

omit [Inhabited Key] in
theorem Refines.followsOwnCode
    {task : TaskId} {start : Start User}
    (refines : Refines program s record coroutine delivered) (born : s.spawned[task]? = some start)
    (outside : ∀ worker, (s.pc worker).inside ≠ some task) :
    FollowsOwnCode program s task start (record task) := by
  cases refines.stages task with
  | unborn unborn =>
      obtain ⟨less, -⟩ := List.getElem?_eq_some_iff.mp born
      exact absurd less (Nat.not_lt_of_le unborn)
  | waits born' _ _ suspended =>
      obtain rfl := Option.some.inj (born.symm.trans born')
      exact Or.inr ⟨suspended.place.unfinished, suspended.halted⟩
  | finished born' _ _ finished recorded =>
      obtain rfl := Option.some.inj (born.symm.trans born')
      exact Or.inl ⟨_, finished, recorded⟩
  | inside _ here => exact absurd here (outside _)

omit [Inhabited Key] in
/-- Wherever a runner is inside the task, an execution of its code has come there. -/
theorem Refines.begun
    {task : TaskId} {start : Start User}
    (refines : Refines program s record coroutine delivered)
    (born : s.spawned[task]? = some start) :
    Recording.Begun program start.code (record task) := by
  cases refines.stages task with
  | unborn unborn =>
      obtain ⟨less, -⟩ := List.getElem?_eq_some_iff.mp born
      exact absurd less (Nat.not_lt_of_le unborn)
  | waits born' _ _ suspended =>
      obtain rfl := Option.some.inj (born.symm.trans born')
      exact suspended.halted.begun
  | finished born' _ _ _ recorded =>
      obtain rfl := Option.some.inj (born.symm.trans born')
      exact recorded.begun
  | inside born' _ _ _ within =>
      obtain rfl := Option.some.inj (born.symm.trans born')
      exact within.begun

/-- The steps of a runner that leave nothing open. -/
def goes (worker : Bool) (count : Nat) : List (Label Bool User Unit Nat) :=
  List.replicate count (.work worker .go)

/-- A runner begins a round, with so many timers that are due. -/
def startRound (worker : Bool) (now : Int) (due : Nat) : List (Label Bool User Unit Nat) :=
  .work worker (.clock now) :: goes worker (3 * due + 2) ++
    .work worker (.report []) :: goes worker 2

/-- A runner steps a task up to where its timer is started. -/
def dozes (worker : Bool) (now : Int) : List (Label Bool Bool Unit Nat) :=
  goes worker 6 ++ [.work worker (.clock now)]

/-- Two tasks take a nap.  One runner finds their timers due, and each finishes one of them. -/
def twoNaps : List (Label Bool Bool Unit Nat) :=
  [.spawn (.user true), .spawn (.user true)] ++ startRound true 0 0 ++ startRound false 0 0 ++
    goes true 1 ++ goes false 1 ++ dozes true 0 ++ dozes false 1 ++ goes true 4 ++ goes false 4 ++
    goes true 1 ++ startRound true 9 2 ++ goes true 1 ++ goes false 1 ++ goes true 8 ++ goes false 8

/-- On every run of any number of runners on which no `wake()` stores its `kRun` into a task
while a runner is inside its `one_step`, the runners do what the machine that leaves open what
coroutines compute allows: its queue, `m_state`s, timers and registrations are theirs, and its
workers are where they are. -/
theorem runners_refine
    (guarded : Machine.AllSteps (State.step program) WakesOutside
      (State.initial : State Worker User Own Key) labels)
    (ran : Machine.run (State.step program) State.initial labels = some last) :
    ∃ coroutine delivered, ∀ key, Machine.ReachableBy Workers.State.step Workers.WakesOutside
      Workers.State.initial (seen last key coroutine delivered) := by
  obtain ⟨coroutine, delivered, refines⟩ := refined_of_run guarded ran
  exact ⟨coroutine, delivered, refines.reached⟩

theorem wakesOutside_twoNaps :
    Machine.AllSteps (State.step Reactor.napping.program) WakesOutside State.initial twoNaps := by
  decide +kernel

theorem runners_refine_twoNaps :
    ∃ last, Machine.run (State.step Reactor.napping.program) State.initial twoNaps = some last ∧
      last.active = ∅ ∧ ∃ coroutine delivered, ∀ key, Machine.ReachableBy Workers.State.step
        Workers.WakesOutside Workers.State.initial (seen last key coroutine delivered) := by
  obtain ⟨last, ran, idle⟩ : ∃ last, Machine.run (State.step Reactor.napping.program) State.initial
    twoNaps = some last ∧ last.active = ∅ := ⟨_, rfl, rfl⟩
  exact ⟨last, ran, idle, runners_refine wakesOutside_twoNaps ran⟩

/-- On such a run no runner uses a coroutine that is running or was destroyed, no assertion
fails, and a coroutine runs where a runner executes it only. -/
theorem runners_exclusive
    (guarded : Machine.AllSteps (State.step program) WakesOutside
      (State.initial : State Worker User Own Key) labels)
    (ran : Machine.run (State.step program) State.initial labels = some last) :
    Exclusive last := by
  obtain ⟨coroutine, delivered, refines⟩ := refined_of_run guarded ran
  exact refines.exclusive

theorem runners_exclusive_twoNaps :
    ∃ last, Machine.run (State.step Reactor.napping.program) State.initial twoNaps = some last ∧
      Exclusive last := by
  obtain ⟨last, ran⟩ : ∃ last, Machine.run (State.step Reactor.napping.program) State.initial
    twoNaps = some last := ⟨_, rfl⟩
  exact ⟨last, ran, runners_exclusive wakesOutside_twoNaps ran⟩

/-- A nap is over before its task is suspended.  The other runner wakes the task, takes it from
the queue and enters its `one_step`. -/
def overtaken : List (Label Bool Bool Unit Nat) :=
  [.spawn (.user true)] ++ startRound true 0 0 ++ goes true 1 ++ dozes true 0 ++
    startRound false 9 1 ++ goes false 4

/-- Otherwise a runner uses a coroutine that is running. -/
theorem not_exclusive_overtaken :
    ¬∀ last : State Bool Bool Unit Nat,
      Machine.Reachable (State.step Reactor.napping.program) State.initial last →
        Exclusive last := by
  intro exclusive
  obtain ⟨last, ran, crashed⟩ : ∃ last, Machine.run (State.step Reactor.napping.program)
    (State.initial : State Bool Bool Unit Nat) overtaken = some last ∧ last.undefined = true :=
      ⟨_, rfl, rfl⟩
  cases crashed.symm.trans (exclusive last ⟨overtaken, ran⟩).defined

/-- On such a run each task has done the first part of an execution of its own code, and
where no runner is inside its `one_step`, what an execution does up to a suspension or to
its end. -/
theorem runners_isolated
    {task : TaskId} {start : Start User}
    (guarded : Machine.AllSteps (State.step program) WakesOutside
      (State.initial : State Worker User Own Key) labels)
    (ran : Machine.run (State.step program) State.initial labels = some last)
    (born : last.spawned[task]? = some start) :
    Recording.Begun program start.code
        (Reactor.part task (log program State.initial labels)) ∧
      ((∀ worker, (last.pc worker).inside ≠ some task) →
        FollowsOwnCode program last task start
          (Reactor.part task (log program State.initial labels))) := by
  obtain ⟨coroutine, delivered, refines⟩ := refined_of_run guarded ran
  exact ⟨refines.begun born, refines.followsOwnCode born⟩

theorem runners_isolated_twoNaps :
    ∃ last, Machine.run (State.step Reactor.napping.program) State.initial twoNaps = some last ∧
      Recording.Begun Reactor.napping.program (Start.user true).code
        (Reactor.part 1 (log Reactor.napping.program State.initial twoNaps)) ∧
      FollowsOwnCode Reactor.napping.program last 1 (.user true)
        (Reactor.part 1 (log Reactor.napping.program State.initial twoNaps)) := by
  obtain ⟨last, ran, born, outside⟩ : ∃ last,
      Machine.run (State.step Reactor.napping.program) State.initial twoNaps = some last ∧
        last.spawned[1]? = some (.user true) ∧ ∀ worker, (last.pc worker).inside ≠ some 1 :=
    ⟨_, rfl, rfl, by decide⟩
  obtain ⟨begun, follows⟩ := runners_isolated wakesOutside_twoNaps ran born
  exact ⟨last, ran, begun, follows outside⟩

end Runners
end Cppio
