import Cppio.Reactor.Recording
import Cppio.Reactor.Operates
import Cppio.Runners.Machine

/-!
# Where the tasks of the runners are

A task that no runner executes is suspended where an execution of its code has come, or
finished.  Inside its `one_step` the frames fit where the runner is: the handles lead it to
the innermost coroutine, and from one that has returned back to the one that awaits it.
-/

namespace Cppio
namespace Runners

open Workers (Coroutine)

variable {Worker User Own Local Key : Type}

/-- An execution of the task's code has come here, with this record. -/
structure Follows
    (program : User → UserInstr User Own Local) (code : Code User Own)
    (record : List (Occurs User Own Local))
    (nexts : List (Result Own → Code User Own)) (here : Code User Own) : Prop where
  leads : Recording.Leads program code nexts here record
  operates : here.Operates
  below : ∀ next ∈ nexts, ∀ result, (next result).Operates

/-- The task has not started, or its execution is suspended. -/
def Halted
    (program : User → UserInstr User Own Local) (code : Code User Own)
    (record : List (Occurs User Own Local)) : Prop :=
  record = [] ∨ Recording.Recorded program code record none

/-- The task is suspended. -/
structure Suspended
    (program : User → UserInstr User Own Local) (code : Code User Own)
    (record : List (Occurs User Own Local)) (frames : Frames (Code User Own) (Result Own)) :
    Prop where
  place : frames.SuspendedAt (Follows program code record)
  halted : Halted program code record

/-- How the inner loop of `one_step` comes to a coroutine: it was suspended there, or the
child that it awaits has returned. -/
inductive Enters
    (program : User → UserInstr User Own Local) (code : Code User Own)
    (record : List (Occurs User Own Local)) (frames : Frames (Code User Own) (Result Own))
    (curr : Handle) (frame : Frame (Code User Own) (Result Own))
    (nexts : List (Result Own → Code User Own)) : Coroutine → Prop
  | rests {here : Code User Own} (point : frame.point = .code here)
      (follows : Follows program code record nexts here) (halted : Halted program code record) :
      Enters program code record frames curr frame nexts .suspended
  | resumes {child : Handle} {next : Result Own → Code User Own} {value : Result Own}
      (point : frame.point = .resumption child next) (younger : curr < child)
      (returned : (frames.frame child).bind Frame.value = some value)
      (follows : Follows program code record nexts (next value)) :
      Enters program code record frames curr frame nexts .running

/-- A coroutine has returned the value. -/
inductive Returns
    (program : User → UserInstr User Own Local) (code : Code User Own)
    (record : List (Occurs User Own Local)) (value : Result Own) :
    List (Result Own → Code User Own) → Prop
  | finishes (recorded : Recording.Recorded program code record (some value)) :
      Returns program code record value []
  | goesOn {next : Result Own → Code User Own} {nexts : List (Result Own → Code User Own)}
      (follows : Follows program code record nexts (next value)) :
      Returns program code record value (next :: nexts)

/-- The frames fit where the runner is inside the task's `one_step`. -/
inductive Within
    (program : User → UserInstr User Own Local) (task : TaskId) (code : Code User Own)
    (record : List (Occurs User Own Local)) (frames : Frames (Code User Own) (Result Own)) :
    Pc User Own → Coroutine → Prop
  | entered (suspended : Suspended program code record frames) :
      Within program task code record frames (.entered task) .suspended
  | descending {curr handle : Handle} {frame : Frame (Code User Own) (Result Own)}
      {nexts : List (Result Own → Code User Own)} {here : Code User Own}
      (leads : Relation.ReflTransGen
        (fun outer inner => ∃ frame, frames.frame outer = some frame ∧
          frame.innerHandle = some inner) curr handle)
      (stacked : frames.Stacked handle frame nexts) (point : frame.point = .code here)
      (follows : Follows program code record nexts here) (halted : Halted program code record) :
      Within program task code record frames (.descending task curr) .suspended
  | walking {curr : Handle} {frame : Frame (Code User Own) (Result Own)}
      {nexts : List (Result Own → Code User Own)} {coroutine : Coroutine}
      (stacked : frames.Stacked curr frame nexts)
      (enters : Enters program code record frames curr frame nexts coroutine) :
      Within program task code record frames (.walking task curr) coroutine
  | resuming {curr : Handle} {frame : Frame (Code User Own) (Result Own)}
      {nexts : List (Result Own → Code User Own)} {coroutine : Coroutine}
      (stacked : frames.Stacked curr frame nexts)
      (enters : Enters program code record frames curr frame nexts coroutine) :
      Within program task code record frames (.resuming task curr) coroutine
  | executing {curr : Handle} {frame : Frame (Code User Own) (Result Own)}
      {nexts : List (Result Own → Code User Own)} {here : Code User Own}
      (stacked : frames.Stacked curr frame nexts)
      (follows : Follows program code record nexts here)
      (calm : ∀ steps next, here ≠ .park steps next) :
      Within program task code record frames (.executing task curr frame here) .running
  | parking {curr : Handle} {frame : Frame (Code User Own) (Result Own)}
      {nexts : List (Result Own → Code User Own)} {steps : List (ParkStep SocketT)}
      {next : Code User Own}
      (stacked : frames.Stacked curr frame nexts)
      (leads : Recording.Leads program code nexts (.park steps next) record)
      (operates : next.Operates) (below : ∀ next ∈ nexts, ∀ result, (next result).Operates) :
      Within program task code record frames (.executing task curr frame (.park steps next))
        .running
  | suspended {curr : Handle} {own : Frame (Code User Own) (Result Own)}
      (suspended : Suspended program code record frames)
      (found : frames.frame curr = some own) (unfinished : own.done = false) :
      Within program task code record frames (.resumed task curr) .suspended
  | returned {curr : Handle} {frame : Frame (Code User Own) (Result Own)}
      {nexts : List (Result Own → Code User Own)} {value : Result Own}
      (stacked : frames.Stacked curr frame nexts) (final : frame.point = .final)
      (returned : frame.value = some value) (returns : Returns program code record value nexts) :
      Within program task code record frames (.resumed task curr) .running
  | checked (suspended : Suspended program code record frames) :
      Within program task code record frames (.checked task) .suspended

section

variable {program : User → UserInstr User Own Local} {code : Code User Own} {task : TaskId}
variable {record : List (Occurs User Own Local)} {frames : Frames (Code User Own) (Result Own)}

theorem Halted.begun (halted : Halted program code record) :
    Recording.Begun program code record := by
  obtain rfl | recorded := halted
  · exact (Recording.leads_start code).begun
  · exact recorded.begun

theorem Enters.begun
    {curr : Handle} {frame : Frame (Code User Own) (Result Own)}
    {nexts : List (Result Own → Code User Own)} {coroutine : Coroutine}
    (enters : Enters program code record frames curr frame nexts coroutine) :
    Recording.Begun program code record := by
  cases enters with
  | rests _ _ halted => exact halted.begun
  | resumes _ _ _ follows => exact follows.leads.begun

/-- Wherever the runner is, an execution of the code has come there. -/
theorem Within.begun
    {pc : Pc User Own} {coroutine : Coroutine}
    (within : Within program task code record frames pc coroutine) :
    Recording.Begun program code record := by
  cases within with
  | entered suspended => exact suspended.halted.begun
  | descending _ _ _ _ halted => exact halted.begun
  | walking _ enters => exact enters.begun
  | resuming _ enters => exact enters.begun
  | executing _ follows => exact follows.leads.begun
  | parking _ leads => exact leads.begun
  | suspended suspended => exact suspended.halted.begun
  | returned _ _ _ returns =>
      cases returns with
      | finishes recorded => exact recorded.begun
      | goesOn follows => exact follows.leads.begun
  | checked suspended => exact suspended.halted.begun

end

/-- Where a task is, and whether its coroutine has control. -/
inductive Stage
    (program : User → UserInstr User Own Local) (s : State Worker User Own Key)
    (task : TaskId) (record : List (Occurs User Own Local)) (coroutine : Coroutine) : Prop
  | unborn (unborn : s.spawned.length ≤ task)
      (outside : ∀ worker, (s.pc worker).inside ≠ some task)
      (idle : ∀ handle, (task, handle) ∉ s.resumed)
      (nothing : record = []) (is : coroutine = .suspended)
  | waits {start : Start User} (born : s.spawned[task]? = some start)
      (outside : ∀ worker, (s.pc worker).inside ≠ some task)
      (idle : ∀ handle, (task, handle) ∉ s.resumed)
      (suspended : Suspended program start.code record (s.frames task))
      (is : coroutine = .suspended)
  | finished {start : Start User} {value : Result Own} (born : s.spawned[task]? = some start)
      (outside : ∀ worker, (s.pc worker).inside ≠ some task)
      (idle : ∀ handle, (task, handle) ∉ s.resumed)
      (finished : (s.frames task).FinishedWith value)
      (recorded : Recording.Recorded program start.code record (some value))
      (is : coroutine = .finished)
  | inside {start : Start User} {worker : Worker} (born : s.spawned[task]? = some start)
      (here : (s.pc worker).inside = some task)
      (alone : ∀ other, (s.pc other).inside = some task → other = worker)
      (busy : ∀ handle, (task, handle) ∈ s.resumed ↔
        ∃ frame here, s.pc worker = .executing task handle frame here)
      (within : Within program task start.code record (s.frames task) (s.pc worker) coroutine)

variable {program : User → UserInstr User Own Local} {s s' : State Worker User Own Key}
variable {task : TaskId} {record : List (Occurs User Own Local)} {coroutine : Coroutine}

/-! ## Tasks that a step leaves alone -/

/-- What the stage of a task depends on. -/
structure SameFor (task : TaskId) (s s' : State Worker User Own Key) : Prop where
  spawned : s'.spawned = s.spawned
  frames : s'.frames task = s.frames task
  resumed : ∀ handle, (task, handle) ∈ s'.resumed ↔ (task, handle) ∈ s.resumed
  pcs : ∀ worker, (s'.pc worker).inside = some task ∨ (s.pc worker).inside = some task →
    s'.pc worker = s.pc worker

theorem SameFor.outside
    (same : SameFor task s s') (outside : ∀ worker, (s.pc worker).inside ≠ some task) :
    ∀ worker, (s'.pc worker).inside ≠ some task := by
  intro worker inside
  rw [same.pcs worker (Or.inl inside)] at inside
  exact outside worker inside

theorem SameFor.idle
    (same : SameFor task s s') (idle : ∀ handle, (task, handle) ∉ s.resumed) :
    ∀ handle, (task, handle) ∉ s'.resumed := fun handle busy =>
  idle handle ((same.resumed handle).mp busy)

theorem Stage.congr
    (stage : Stage program s task record coroutine) (same : SameFor task s s') :
    Stage program s' task record coroutine := by
  cases stage with
  | unborn unborn outside idle nothing is =>
      exact .unborn (same.spawned ▸ unborn) (same.outside outside) (same.idle idle) nothing is
  | waits born outside idle suspended is =>
      exact .waits (same.spawned ▸ born) (same.outside outside) (same.idle idle)
        (same.frames ▸ suspended) is
  | finished born outside idle finished recorded is =>
      exact .finished (same.spawned ▸ born) (same.outside outside) (same.idle idle)
        (same.frames ▸ finished) recorded is
  | @inside start worker born here alone busy within =>
      have there : s'.pc worker = s.pc worker := same.pcs worker (Or.inr here)
      refine .inside (same.spawned ▸ born) (there ▸ here) (fun other inside => ?_)
        (fun handle => ?_) ?_
      · rw [same.pcs other (Or.inl inside)] at inside
        exact alone other inside
      · rw [same.resumed, there]
        exact busy handle
      · rw [there, same.frames]
        exact within

/-- A task that `spawn` was given is suspended at the start of its code. -/
theorem suspended_start (start : Start User) :
    Suspended program (start.code : Code User Own) [] (Frames.ofCode start.code) where
  place := Frames.suspendedAt_ofCode
    ⟨Recording.leads_start _, Code.operates_code start, List.forall_mem_nil _⟩
  halted := Or.inl rfl

theorem Stage.spawn
    (stage : Stage program s task record coroutine) (start : Start User) :
    Stage program (s.spawn start) task record coroutine := by
  have grows : ∀ {own : Start User}, s.spawned[task]? = some own →
      (s.spawned ++ [start])[task]? = some own ∧ task ≠ s.spawned.length := by
    intro own born
    obtain ⟨less, -⟩ := List.getElem?_eq_some_iff.mp born
    exact ⟨(List.getElem?_append_left less).trans born, less.ne⟩
  have elsewhere : task ≠ s.spawned.length → (s.spawn start).frames task = s.frames task :=
    fun different => Function.update_of_ne different _ _
  cases stage with
  | unborn unborn outside idle nothing is =>
      by_cases same : task = s.spawned.length
      · subst same
        refine .waits (List.getElem?_concat_length) outside idle ?_ is
        rw [nothing, show (s.spawn start).frames s.spawned.length = Frames.ofCode start.code from
          Function.update_self ..]
        exact suspended_start start
      · refine .unborn ?_ outside idle nothing is
        simp only [State.spawn, List.length_append, List.length_singleton]
        exact Nat.succ_le_of_lt (Nat.lt_of_le_of_ne unborn (Ne.symm same))
  | waits born outside idle suspended is =>
      obtain ⟨born, different⟩ := grows born
      exact .waits born outside idle (elsewhere different ▸ suspended) is
  | finished born outside idle finished recorded is =>
      obtain ⟨born, different⟩ := grows born
      exact .finished born outside idle (elsewhere different ▸ finished) recorded is
  | inside born here alone busy within =>
      obtain ⟨born, different⟩ := grows born
      exact .inside born here alone busy (elsewhere different ▸ within)

/-! ## The task that a step is about -/

/-- A runner is inside the `one_step` of the task. -/
structure Inside
    (program : User → UserInstr User Own Local) (s : State Worker User Own Key)
    (worker : Worker) (task : TaskId) (start : Start User)
    (record : List (Occurs User Own Local)) (coroutine : Coroutine) : Prop where
  born : s.spawned[task]? = some start
  alone : ∀ other, (s.pc other).inside = some task → other = worker
  busy : ∀ handle, (task, handle) ∈ s.resumed ↔
    ∃ frame here, s.pc worker = .executing task handle frame here
  within : Within program task start.code record (s.frames task) (s.pc worker) coroutine

theorem Stage.of_inside
    {worker : Worker} (stage : Stage program s task record coroutine)
    (here : (s.pc worker).inside = some task) :
    ∃ start, Inside program s worker task start record coroutine := by
  cases stage with
  | unborn _ outside => exact absurd here (outside worker)
  | waits _ outside => exact absurd here (outside worker)
  | finished _ outside => exact absurd here (outside worker)
  | @inside start other born _ alone busy within =>
      obtain rfl := alone worker here
      exact ⟨start, born, alone, busy, within⟩

variable [DecidableEq Worker]

/-- The runner stays inside the task's `one_step`. -/
theorem Inside.stage
    {worker : Worker} {start : Start User} {record' : List (Occurs User Own Local)}
    {coroutine' : Coroutine} {pc : Pc User Own}
    (inside : Inside program s worker task start record coroutine)
    (spawned : s'.spawned = s.spawned) (pcs : s'.pc = Function.update s.pc worker pc)
    (here : pc.inside = some task)
    (busy : ∀ handle, (task, handle) ∈ s'.resumed ↔
      ∃ frame here, pc = .executing task handle frame here)
    (within : Within program task start.code record' (s'.frames task) pc coroutine') :
    Stage program s' task record' coroutine' := by
  have own : s'.pc worker = pc := by rw [pcs, Function.update_self]
  have here : (s'.pc worker).inside = some task := own ▸ here
  refine .inside (spawned ▸ inside.born) here (fun other there => ?_) ?_ ?_
  · by_contra different
    rw [pcs, Function.update_of_ne different] at there
    exact different (inside.alone other there)
  · rw [own]
    exact busy
  · rw [own]
    exact within

/-- The runner has left the task's `one_step`. -/
theorem Inside.outside
    {worker : Worker} {start : Start User} {pc : Pc User Own}
    (inside : Inside program s worker task start record coroutine)
    (pcs : s'.pc = Function.update s.pc worker pc) (left : pc.inside ≠ some task) :
    ∀ other, (s'.pc other).inside ≠ some task := by
  intro other there
  rw [pcs] at there
  by_cases same : other = worker
  · subst same
    rw [Function.update_self] at there
    exact left there
  · rw [Function.update_of_ne same] at there
    exact same (inside.alone other there)

omit [DecidableEq Worker] in
/-- Outside of the coroutines none is running. -/
theorem Inside.idle
    {worker : Worker} {start : Start User}
    (inside : Inside program s worker task start record coroutine)
    (rests : ∀ handle frame here, s.pc worker ≠ .executing task handle frame here) :
    ∀ handle, (task, handle) ∉ s.resumed := by
  intro handle busy
  obtain ⟨frame, here, there⟩ := (inside.busy handle).mp busy
  exact rests handle frame here there

/-- The place is in no coroutine. -/
def Pc.Between (pc : Pc User Own) : Prop :=
  ∀ task handle frame here, pc ≠ .executing task handle frame here

/-- The runner goes on inside `one_step`, between the coroutines. -/
theorem Inside.goesOn
    {worker : Worker} {start : Start User} {pc : Pc User Own} {coroutine' : Coroutine}
    (inside : Inside program s worker task start record coroutine)
    (spawned : s'.spawned = s.spawned) (resumed : s'.resumed = s.resumed)
    (pcs : s'.pc = Function.update s.pc worker pc) (here : pc.inside = some task)
    (before : (s.pc worker).Between) (after : pc.Between)
    (within : Within program task start.code record (s'.frames task) pc coroutine') :
    Stage program s' task record coroutine' := by
  refine inside.stage spawned pcs here (fun handle => ?_) within
  rw [resumed]
  refine ⟨fun busy => absurd busy (inside.idle (before task) handle), ?_⟩
  rintro ⟨frame, here, there⟩
  exact absurd there (after task handle frame here)

end Runners
end Cppio
