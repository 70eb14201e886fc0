import Cppio.Runners.OneStep

/-!
# The runners in the coroutines

Each instruction of a coroutine takes the execution of its task's code one step further, and
is a step of the machine that leaves open what coroutines compute, or is not seen there.
-/

namespace Cppio
namespace Runners

open Workers (Coroutine)

variable {Worker User Own Local Key : Type} [DecidableEq Worker] [DecidableEq Key]
variable {program : User → UserInstr User Own Local} {s next : State Worker User Own Key}
variable {record : TaskId → List (Occurs User Own Local)} {coroutine : TaskId → Coroutine}
variable {delivered : TaskId → Bool} {worker : Worker} {task : TaskId}
variable {curr : Handle} {frame : Frame (Code User Own) (Result Own)} {here : Code User Own}

/-- How far the running coroutine is on its way to a suspension. -/
inductive Course
    (s : State Worker User Own Key) (coroutine : TaskId → Coroutine) (delivered : TaskId → Bool)
    (worker : Worker) (task : TaskId)
    (instr : Instr (Code User Own) (Effect User Local) (Result Own) (Effect.Reply Own)) : Prop
  | calm (operating : Code.Operating instr)
      (there : ∀ key, (seen s key coroutine delivered).pc worker = .executing task none)
  | parking {steps : List (ParkStep SocketT)} {next : Code User Own}
      (parks : instr = Code.parkInstr next steps) (operates : next.Operates)
      (leads : ∀ key, Leads (seen s key coroutine delivered)
        ((seen s key coroutine delivered).goto worker
          (.executing task (some (steps.map (ParkStep.map (key worker)))))))

/-- What holds where a runner executes a coroutine. -/
structure Executing
    (program : User → UserInstr User Own Local) (s : State Worker User Own Key)
    (record : List (Occurs User Own Local)) (coroutine : TaskId → Coroutine)
    (delivered : TaskId → Bool) (worker : Worker) (task : TaskId) (curr : Handle)
    (frame : Frame (Code User Own) (Result Own)) (here : Code User Own) (start : Start User)
    (nexts : List (Result Own → Code User Own)) : Prop where
  inside : Inside program s worker task start record (coroutine task)
  stacked : (s.frames task).Stacked curr frame nexts
  leads : Recording.Leads program start.code nexts here record
  below : ∀ next ∈ nexts, ∀ result, (next result).Operates
  control : coroutine task = .running
  course : Course s coroutine delivered worker task (here.instr program)

theorem Refines.executing
    (refines : Refines program s record coroutine delivered)
    (there : s.pc worker = .executing task curr frame here) :
    ∃ start nexts, Executing program s (record task) coroutine delivered worker task curr frame
      here start nexts := by
  obtain ⟨start, inside, within⟩ := refines.inside there rfl
  generalize is : coroutine task = control at within
  cases within with
  | executing stacked follows calm =>
      have seenHere : ∀ key,
          (seen s key coroutine delivered).pc worker = .executing task none := by
        intro key
        simp only [seen, there, seenPc]
        cases here with
        | park steps next => exact absurd rfl (calm steps next)
        | _ => rfl
      refine ⟨start, _, inside, stacked, follows.leads, follows.below, is, ?_⟩
      rcases Code.operating_or_park program follows.operates with
        operating | ⟨operation, next, parks, -, operates⟩
      · exact .calm operating seenHere
      · refine .parking parks operates fun key => ?_
        refine leads_of_work worker (.start (operation.map (key worker))) refines.defined
          (by simp [seenHere]) ?_
        simp only [Workers.State.work, seenHere, Operation.parkSteps_map]
  | @parking _ _ nexts steps next stacked leads operates below =>
      refine ⟨start, nexts, inside, stacked, leads, below, is, .parking rfl operates fun key => ?_⟩
      have seenHere : (seen s key coroutine delivered).pc worker =
          .executing task (some (steps.map (ParkStep.map (key worker)))) := by
        simp only [seen, there, seenPc, parking]
      rw [← seenHere, goto_self]
      exact .refl _ _ _

section

variable {start : Start User} {nexts : List (Result Own → Code User Own)}
variable {events : List (Occurs User Own Local)}

omit [DecidableEq Worker] [DecidableEq Key] in
/-- The coroutine that the runner executes is the one of the task that is running. -/
theorem Inside.running
    {control : Coroutine} (inside : Inside program s worker task start events control)
    (there : s.pc worker = .executing task curr frame here) (handle : Handle) :
    (task, handle) ∈ s.resumed ↔ handle = curr := by
  rw [inside.busy, there]
  constructor
  · rintro ⟨frame', here', same⟩
    obtain ⟨-, same, -⟩ := Pc.executing.inj same
    exact same.symm
  · rintro rfl
    exact ⟨frame, here, rfl⟩

omit [DecidableEq Key] in
/-- The runner goes on in the coroutine. -/
theorem Inside.continues
    {s' : State Worker User Own Key} {control control' : Coroutine} {code : Code User Own}
    {events' : List (Occurs User Own Local)}
    (inside : Inside program s worker task start events control)
    (there : s.pc worker = .executing task curr frame here)
    (spawned : s'.spawned = s.spawned) (resumed : s'.resumed = s.resumed)
    (pcs : s'.pc = Function.update s.pc worker (.executing task curr frame code))
    (within : Within program task start.code events' (s'.frames task)
      (.executing task curr frame code) control') :
    Stage program s' task events' control' := by
  refine inside.stage spawned pcs rfl (fun handle => ?_) within
  rw [resumed, inside.running there]
  constructor
  · rintro rfl
    exact ⟨frame, code, rfl⟩
  · rintro ⟨frame', here', same⟩
    obtain ⟨-, same, -⟩ := Pc.executing.inj same
    exact same.symm

/-- A coroutine that awaits or returns is not on its way to suspension. -/
theorem Course.calm_of
    {instr : Instr (Code User Own) (Effect User Local) (Result Own) (Effect.Reply Own)}
    (course : Course s coroutine delivered worker task instr)
    (suspend : ∀ after, instr ≠ .suspend after) (wait : ∀ after, instr ≠ .wait after)
    (perform : ∀ effect after, instr ≠ .perform effect after) :
    Code.Operating instr ∧
      ∀ key, (seen s key coroutine delivered).pc worker = .executing task none := by
  cases course with
  | calm operating there => exact ⟨operating, there⟩
  | @parking steps next parks =>
      rcases Code.parkInstr_cases steps next with ⟨after, is⟩ | ⟨after, is⟩ | ⟨effect, after, is⟩
      · exact absurd (parks.trans is) (suspend after)
      · exact absurd (parks.trans is) (wait after)
      · exact absurd (parks.trans is) (perform effect after)

/-- `wait()`. -/
theorem Refines.wait
    {next : Code User Own} (refines : Refines program s record coroutine delivered)
    (there : s.pc worker = .executing task curr frame here)
    (body : here.instr program = .wait next) :
    Refined program ((s.setState task .wait).goto worker (.executing task curr frame next))
      (extend record [(task, .waited)]) := by
  obtain ⟨start, nexts, executing⟩ := refines.executing there
  have course := executing.course
  rw [body] at course
  cases course with
  | calm operating => cases operating
  | parking parks operates leads =>
      obtain ⟨rest, rfl, rfl⟩ := Code.parkInstr_eq_wait parks.symm
      have own : OwnData task s (s.setState task .wait) :=
        ⟨rfl, fun _ _ => rfl, fun _ _ _ => Iff.rfl, rfl, rfl⟩
      refine refines.does delivered [.waited] executing.inside.alone
        (only_of_inside (by rw [there]; rfl)) (only_of_inside rfl) own ?_ fun key => ?_
      · refine executing.inside.continues there rfl rfl rfl ?_
        rw [executing.control]
        exact .parking executing.stacked (executing.leads.waited body) operates executing.below
      · refine ((refines.reached key).trans (leads key)).trans ?_
        refine leads_of_work worker (.park true 0) refines.defined (by simp) ?_
        simp only [Workers.State.work, goto_pc, List.map_cons, ParkStep.map,
          Workers.State.parkStep, Option.map_some, seenPc, parking]
        exact congrArg some (goto_goto (seen (s.setState task .wait) key coroutine delivered) ..)

omit [DecidableEq Worker] [DecidableEq Key] in
theorem ownData_suspend
    (task : TaskId) (curr : Handle) (frames : Frames (Code User Own) (Result Own))
    (s : State Worker User Own Key) : OwnData task s (s.suspend task curr frames) := by
  refine ⟨rfl, fun _ different => Function.update_of_ne different _ _,
    fun other different handle => ?_, rfl, rfl⟩
  simp [State.suspend, different]

omit [DecidableEq Key] in
/-- The coroutine has given up control. -/
theorem Inside.halts
    {frames : Frames (Code User Own) (Result Own)} {control control' : Coroutine}
    (inside : Inside program s worker task start events control)
    (there : s.pc worker = .executing task curr frame here)
    (within : Within program task start.code events frames (.resumed task curr) control') :
    Stage program ((s.suspend task curr frames).goto worker (.resumed task curr)) task events
      control' := by
  refine inside.stage rfl rfl rfl (fun handle => ?_) ?_
  · change (task, handle) ∈ s.resumed.erase (task, curr) ↔ _
    rw [Finset.mem_erase, inside.running there]
    constructor
    · rintro ⟨different, rfl⟩
      exact absurd rfl different
    · rintro ⟨frame', here', same⟩
      cases same
  · rw [show ((s.suspend task curr frames).goto worker (.resumed task curr)).frames task = frames
      from Function.update_self ..]
    exact within

/-- The coroutine suspends, and is not handed over. -/
theorem leads_suspend
    {w : Workers.State Worker Key} (defined : w.undefined = false)
    (there : w.pc worker = .executing task none) :
    Leads w (w.goto worker (.executing task (some []))) := by
  refine leads_of_work worker .awaitChild defined (by simp [there]) ?_
  simp only [Workers.State.work, there]

theorem leads_halt
    {w : Workers.State Worker Key} (defined : w.undefined = false) :
    Leads (w.goto worker (.executing task (some [])))
      ((w.setCoroutine task .suspended).goto worker (.suspended task)) := by
  refine leads_of_work worker .go defined (by simp) ?_
  simp only [Workers.State.work, goto_pc]
  exact congrArg some (goto_goto (w.setCoroutine task .suspended) ..)

/-- `co_await std::suspend_always{}`. -/
theorem Refines.suspend
    {next : Code User Own} (refines : Refines program s record coroutine delivered)
    (there : s.pc worker = .executing task curr frame here)
    (body : here.instr program = .suspend next) :
    Refined program
      ((s.suspend task curr
        ((s.frames task).put curr (some { frame with point := .code next }))).goto worker
          (.resumed task curr)) record := by
  obtain ⟨start, nexts, executing⟩ := refines.executing there
  have course := executing.course
  rw [body] at course
  obtain ⟨operates, leads⟩ : next.Operates ∧ ∀ key, Leads (seen s key coroutine delivered)
      ((seen s key coroutine delivered).goto worker (.executing task (some []))) := by
    cases course with
    | calm operating seenHere =>
        cases operating with
        | suspend operates =>
            exact ⟨operates, fun key => leads_suspend refines.defined (seenHere key)⟩
    | parking parks operates leads =>
        obtain ⟨rfl, rfl⟩ := Code.parkInstr_eq_suspend parks.symm
        exact ⟨operates, leads⟩
  have recorded := executing.leads.recorded (.rest body)
  rw [show [Occurrence.suspended].filter Recording.recorded = [] from rfl, List.append_nil]
    at recorded
  refine refines.silent .suspended executing.inside.alone (only_of_inside (by rw [there]; rfl))
    (only_of_inside rfl) (ownData_suspend task curr _ s) ?_ fun key => ?_
  · refine executing.inside.halts there (.suspended ?_ (Frames.put_frame_self _ _ _) rfl)
    refine ⟨⟨curr, _, next, nexts, executing.stacked.put executing.stacked.innermost rfl, rfl, ?_⟩,
      Or.inr recorded⟩
    exact ⟨executing.leads.suspended body, operates, executing.below⟩
  · rw [seenPc, Function.update_self, if_neg (by decide)]
    exact (leads key).trans (leads_halt refines.defined)

/-- `co_await` of a fresh task. -/
theorem Refines.await
    {child : Code User Own} {next : Result Own → Code User Own}
    (refines : Refines program s record coroutine delivered)
    (there : s.pc worker = .executing task curr frame here)
    (body : here.instr program = .await child next) :
    Refined program
      ((s.suspend task curr ((s.frames task).await curr frame child next)).goto worker
        (.resumed task curr)) record := by
  obtain ⟨start, nexts, executing⟩ := refines.executing there
  have course := executing.course
  rw [body] at course
  obtain ⟨operating, seenHere⟩ := course.calm_of (by simp) (by simp) (by simp)
  have recorded := executing.leads.recorded (.handOver body)
  rw [List.filter_nil, List.append_nil] at recorded
  cases operating with
  | await operates operatesNext =>
      refine refines.silent .suspended executing.inside.alone
        (only_of_inside (by rw [there]; rfl)) (only_of_inside rfl)
        (ownData_suspend task curr _ s) ?_ fun key => ?_
      · refine executing.inside.halts there (.suspended ?_ (Frames.put_frame_self _ _ _) rfl)
        refine ⟨⟨_, _, child, _, executing.stacked.await child next, rfl, ?_⟩, Or.inr recorded⟩
        exact ⟨executing.leads.awaited body, operates,
          List.forall_mem_cons.mpr ⟨operatesNext, executing.below⟩⟩
      · rw [seenPc, Function.update_self, if_neg (by decide)]
        exact (leads_suspend refines.defined (seenHere key)).trans (leads_halt refines.defined)

/-- `co_return`. -/
theorem Refines.ret
    {value : Result Own} (refines : Refines program s record coroutine delivered)
    (there : s.pc worker = .executing task curr frame here)
    (body : here.instr program = .ret value) :
    Refined program
      ((s.suspend task curr ((s.frames task).put curr
        (some { frame with value := some value, point := .final }))).goto worker
          (.resumed task curr)) record := by
  obtain ⟨start, nexts, executing⟩ := refines.executing there
  have course := executing.course
  rw [body] at course
  obtain ⟨-, seenHere⟩ := course.calm_of (by simp) (by simp) (by simp)
  have returns : Returns program start.code (record task) value nexts := by
    have leads := executing.leads
    have below := executing.below
    cases nexts with
    | nil =>
        have recorded := leads.recorded (.finish body)
        rw [List.filter_nil, List.append_nil] at recorded
        exact .finishes recorded
    | cons next nexts =>
        obtain ⟨operates, below⟩ := List.forall_mem_cons.mp below
        exact .goesOn ⟨leads.returned body, operates value, below⟩
  refine refines.unseen executing.inside.alone (only_of_inside (by rw [there]; rfl))
    (only_of_inside rfl) (ownData_suspend task curr _ s) ?_ (fun _ => rfl) fun key => ?_
  · refine executing.inside.halts there ?_
    rw [executing.control]
    exact .returned (executing.stacked.put executing.stacked.innermost rfl) rfl rfl returns
  · have returning : seenPc key coroutine (.resumed task curr : Pc User Own) =
        .executing task none := by
      simp [seenPc, executing.control]
    exact returning.trans (seenHere fun _ => key).symm

/-! ## Effects -/

omit [DecidableEq Worker] in
/-- An effect that does not hand the task over spawns, or leaves what is seen from outside. -/
theorem calm_of_perform
    {s' : State Worker User Own Key} {effect : Effect User Local} {choice : Choice Own Key}
    {outcome : effect.Outcome Own}
    (calm : effect.isArm = false) (performed : s.perform task effect choice = some (outcome, s')) :
    (∃ start, s' = s.spawn start) ∨ (SameData s s' ∧ ∀ key coroutine delivered,
      seen s' key coroutine delivered = seen s key coroutine delivered) := by
  have plain : SameData s s := ⟨rfl, rfl, rfl, rfl, rfl⟩
  cases effect with
  | syscall call =>
      cases choice with
      | answer answer =>
          obtain ⟨-, rfl⟩ := Prod.mk.inj (Option.some.inj performed)
          exact Or.inr ⟨plain, fun _ _ _ => rfl⟩
      | _ => cases performed
  | overlapped =>
      cases choice with
      | go =>
          obtain ⟨-, rfl⟩ := Prod.mk.inj (Option.some.inj performed)
          exact Or.inr ⟨⟨rfl, rfl, rfl, rfl, rfl⟩, fun _ _ _ => rfl⟩
      | _ => cases performed
  | success =>
      cases choice with
      | go =>
          obtain ⟨-, rfl⟩ := Prod.mk.inj (Option.some.inj performed)
          exact Or.inr ⟨plain, fun _ _ _ => rfl⟩
      | _ => cases performed
  | register interest sock => cases calm
  | startTimer delay => cases calm
  | perform effect =>
      cases choice with
      | value value =>
          obtain ⟨-, rfl⟩ := Prod.mk.inj (Option.some.inj performed)
          exact Or.inr ⟨plain, fun _ _ _ => rfl⟩
      | _ => cases performed
  | spawn start =>
      cases choice with
      | go =>
          obtain ⟨-, rfl⟩ := Prod.mk.inj (Option.some.inj performed)
          exact Or.inl ⟨start, rfl⟩
      | _ => cases performed

/-- `spawn` leaves the runners where they are. -/
theorem Refines.spawn
    (refines : Refines program s record coroutine delivered) (start : Start User) :
    Refines program (s.spawn start) record coroutine delivered where
  defined := refines.defined
  reached key := by
    have defined : ¬(seen s key coroutine delivered).undefined = true :=
      Bool.eq_false_iff.mp refines.defined
    have stepped : (seen s key coroutine delivered).step .spawn =
        some (seen (s.spawn start) key coroutine delivered) := by
      rw [Workers.State.step, if_neg defined, seen_spawn]
    exact (refines.reached key).trans (leads_of_outside (by simp) stepped)
  stages task := (refines.stages task).spawn start

/-- An effect that is not seen from outside. -/
theorem Refines.performs_unseen
    {s' : State Worker User Own Key} {effect : Effect User Local}
    {next : effect.Reply Own → Code User Own}
    (refines : Refines program s record coroutine delivered)
    (there : s.pc worker = .executing task curr frame here)
    (body : here.instr program = .perform effect next) (calm : effect.isArm = false)
    (same : SameData s s')
    (unseen : ∀ key, seen s' key coroutine delivered = seen s key coroutine delivered)
    (outcome : effect.Outcome Own) :
    Refined program (s'.goto worker (.executing task curr frame (next (effect.reply outcome))))
      (extend record [(task, .performed effect outcome)]) := by
  obtain ⟨start, nexts, executing⟩ := refines.executing there
  have course := executing.course
  rw [body] at course
  cases course with
  | parking parks =>
      obtain ⟨-, -, -, -, -, arms, -⟩ := Code.parkInstr_eq_perform parks.symm
      cases calm.symm.trans arms
  | calm operating seenHere =>
      cases operating with
      | perform _ operates =>
          have follows : Follows program start.code _ nexts (next (effect.reply outcome)) :=
            ⟨executing.leads.performed body outcome, operates _, executing.below⟩
          have own : OwnData task s s' :=
            ⟨same.spawned, fun other _ => congrFun same.frames other,
              fun _ _ _ => by rw [same.resumed], same.pc, same.undefined⟩
          refine refines.does delivered [.performed effect outcome] executing.inside.alone
            (only_of_inside (by rw [there]; rfl)) (only_of_inside rfl) own ?_ fun key => ?_
          · refine executing.inside.continues there same.spawned same.resumed
              (congrArg (fun pcs => Function.update pcs worker _) same.pc) ?_
            have stacked : (s'.frames task).Stacked curr frame nexts := by
              rw [same.frames]
              exact executing.stacked
            rw [executing.control]
            exact within_of_follows stacked follows
          · have arrives : Leads ((seen s key coroutine delivered).goto worker _) _ :=
              leads_arrive (key worker) worker task refines.defined follows.operates
            rw [← seenHere key, goto_self] at arrives
            rw [unseen]
            exact (refines.reached key).trans arrives

/-! ## Handing the task over -/

omit [DecidableEq Key] in
/-- What one runner finds shows in where it is only. -/
theorem seen_goto_key
    (s : State Worker User Own Key) {key key' : Worker → SocketT → Key}
    (coroutine : TaskId → Coroutine) (delivered : TaskId → Bool) (pc : Workers.Pc Key)
    (same : ∀ other ≠ worker, key' other = key other) :
    (seen s key' coroutine delivered).goto worker pc =
      (seen s key coroutine delivered).goto worker pc := by
  have pcs : Function.update (seen s key' coroutine delivered).pc worker pc =
      Function.update (seen s key coroutine delivered).pc worker pc := by
    funext other
    by_cases isWorker : other = worker
    · subst isWorker
      rw [Function.update_self, Function.update_self]
    · rw [Function.update_of_ne isWorker, Function.update_of_ne isWorker]
      simp only [seen, same other isWorker]
  exact congrArg (fun pcs => { seen s key coroutine delivered with pc := pcs }) pcs

omit [DecidableEq Worker] [DecidableEq Key] in
/-- After the task was handed over only `wait()` is left. -/
theorem map_of_parking
    {arm : ParkStep SocketT} {rest : List (ParkStep SocketT)} {key key' : SocketT → Key}
    {quiet : Prop} {state : ScheduleType} (arms : arm.isArm = true)
    (parking : Workers.Parking ((arm :: rest).map (ParkStep.map key)) quiet state) :
    rest.map (ParkStep.map key') = rest.map (ParkStep.map key) := by
  have single := parking.single
  rw [List.map_cons, List.pairwise_cons] at single
  refine List.map_congr_left fun step present => ?_
  have differs := single.1 _ (List.mem_map_of_mem present)
  cases step with
  | wait => rfl
  | _ => cases arm <;> simp_all [ParkStep.map, ParkStep.isArm]

/-- How the runner hands the task over: `own` puts the entry that `epoll_ctl` has found in
place of those that the runner was going to find. -/
structure HandsOver
    (s s' : State Worker User Own Key) (worker : Worker) (task : TaskId)
    (arm : ParkStep SocketT) (own : (SocketT → Key) → SocketT → Key) (succeeds : Bool)
    (now : Int) : Prop where
  same : SameData s s'
  parks : ∀ key coroutine delivered pc,
    ((seen s (Function.update key worker (own (key worker))) coroutine delivered).goto worker
      pc).parkStep task succeeds now (arm.map (own (key worker))) =
    some ((seen s' (Function.update key worker (own (key worker))) coroutine
      (Function.update delivered task false)).goto worker pc)

/-- An effect on the way to suspension hands the task over. -/
theorem handsOver_of_perform
    {s' : State Worker User Own Key} {steps : List (ParkStep SocketT)} {code : Code User Own}
    {effect : Effect User Local} {after : effect.Reply Own → Code User Own}
    {choice : Choice Own Key} {outcome : effect.Outcome Own}
    (worker : Worker) (parks : Code.parkInstr code steps = .perform effect after)
    (performed : s.perform task effect choice = some (outcome, s')) :
    ∃ arm rest own succeeds now, steps = arm :: rest ∧ arm.isArm = true ∧
      (∀ reply, after reply = .park rest code) ∧
      HandsOver s s' worker task arm own succeeds now := by
  cases steps with
  | nil => cases parks
  | cons arm rest =>
      cases arm with
      | wait => cases parks
      | register interest sock =>
          cases parks
          cases choice with
          | epollCtl ctl entry =>
              obtain ⟨-, rfl⟩ := Prod.mk.inj (Option.some.inj performed)
              refine ⟨_, rest, fun _ _ => entry, ctl.armed, 0, rfl, rfl, fun _ => rfl, ?_, ?_⟩
              · split_ifs <;> exact ⟨rfl, rfl, rfl, rfl, rfl⟩
              · intro key coroutine delivered pc
                split_ifs with armed <;>
                  simp [ParkStep.map, Workers.State.parkStep, Workers.State.goto, seen, armed]
          | _ => cases performed
      | startTimer delay =>
          cases parks
          cases choice with
          | clock now =>
              simp only [State.perform] at performed
              split_ifs at performed with locked
              obtain ⟨-, rfl⟩ := Prod.mk.inj (Option.some.inj performed)
              refine ⟨_, rest, id, true, now, rfl, rfl, fun _ => rfl, ⟨rfl, rfl, rfl, rfl, rfl⟩, ?_⟩
              intro key coroutine delivered pc
              simp [ParkStep.map, Workers.State.parkStep, Workers.State.goto, seen, locked]
          | _ => cases performed

/-- An effect that hands the task over. -/
theorem Refines.performs_arm
    {s' : State Worker User Own Key} {effect : Effect User Local}
    {next : effect.Reply Own → Code User Own} {choice : Choice Own Key}
    {outcome : effect.Outcome Own}
    (refines : Refines program s record coroutine delivered)
    (there : s.pc worker = .executing task curr frame here)
    (body : here.instr program = .perform effect next) (arms : effect.isArm = true)
    (performed : s.perform task effect choice = some (outcome, s')) :
    Refined program (s'.goto worker (.executing task curr frame (next (effect.reply outcome))))
      (extend record [(task, .performed effect outcome)]) := by
  obtain ⟨start, nexts, executing⟩ := refines.executing there
  have course := executing.course
  rw [body] at course
  cases course with
  | calm operating =>
      cases operating with
      | perform calm => cases arms.symm.trans calm
  | @parking steps code parks operates leads =>
      obtain ⟨arm, rest, own, succeeds, now, rfl, isArm, after, handsOver⟩ :=
        handsOver_of_perform worker parks.symm performed
      have recorded := executing.leads.performed body outcome
      rw [after] at recorded ⊢
      have data : OwnData task s s' :=
        ⟨handsOver.same.spawned, fun other _ => congrFun handsOver.same.frames other,
          fun _ _ _ => by rw [handsOver.same.resumed], handsOver.same.pc,
          handsOver.same.undefined⟩
      refine refines.does (Function.update delivered task false) [.performed effect outcome]
        executing.inside.alone (only_of_inside (by rw [there]; rfl)) (only_of_inside rfl) data ?_
        fun key => ?_
      · refine executing.inside.continues there handsOver.same.spawned handsOver.same.resumed
          (congrArg (fun pcs => Function.update pcs worker _) handsOver.same.pc) ?_
        have stacked : (s'.frames task).Stacked curr frame nexts := by
          rw [handsOver.same.frames]
          exact executing.stacked
        rw [executing.control]
        exact .parking stacked recorded operates executing.below
      · -- the entry that `epoll_ctl` has found was found from the start of the operation
        let found := Function.update key worker (own (key worker))
        have own_eq : found worker = own (key worker) := Function.update_self ..
        have elsewhere : ∀ other ≠ worker, found other = key other := fun _ different =>
          Function.update_of_ne different ..
        have arrives := (refines.reached found).trans (leads found)
        rw [own_eq] at arrives
        obtain ⟨-, -, quiet, fits⟩ := held_of_leads arrives
          (by rw [goto_pc]; rfl)
        rw [goto_pc] at fits
        obtain ⟨-, parking⟩ : coroutine task = .running ∧
          Workers.Parking ((arm :: rest).map (ParkStep.map (own (key worker)))) quiet
            (s.state task) := fits
        rw [← seen_goto_key s' coroutine _ _ elsewhere, seenPc, Runners.parking,
          map_of_parking isArm parking]
        refine arrives.trans ?_
        refine leads_of_work worker (.park succeeds now) refines.defined (by simp) ?_
        simp only [Workers.State.work, goto_pc, List.map_cons, handsOver.parks, Option.map_some,
          goto_goto, found]

/-- An effect of a coroutine. -/
theorem Refines.performs
    {s' : State Worker User Own Key} {effect : Effect User Local}
    {next : effect.Reply Own → Code User Own} {choice : Choice Own Key}
    {outcome : effect.Outcome Own}
    (refines : Refines program s record coroutine delivered)
    (there : s.pc worker = .executing task curr frame here)
    (body : here.instr program = .perform effect next)
    (performed : s.perform task effect choice = some (outcome, s')) :
    Refined program (s'.goto worker (.executing task curr frame (next (effect.reply outcome))))
      (extend record [(task, .performed effect outcome)]) := by
  cases arms : effect.isArm with
  | true => exact refines.performs_arm there body arms performed
  | false =>
      rcases calm_of_perform arms performed with ⟨start, rfl⟩ | ⟨same, unseen⟩
      · exact (refines.spawn start).performs_unseen there body arms ⟨rfl, rfl, rfl, rfl, rfl⟩
          (fun _ => rfl) outcome
      · exact refines.performs_unseen there body arms same (fun key => unseen key _ _) outcome

/-- An instruction of a coroutine is in the task's record, or has no effect. -/
theorem Refines.executes
    {next : State Worker User Own Key} {choice : Choice Own Key}
    (refines : Refines program s record coroutine delivered)
    (there : s.pc worker = .executing task curr frame here)
    (executes : Executes program s worker task curr frame here choice next) :
    Refined program next (extend record (passed program s (.work worker choice))) := by
  cases executes with
  | @perform effect _ _ outcome _ body performed =>
      rw [show passed program s (.work worker choice) = [(task, .performed effect outcome)] by
        simp only [passed, there, body, performed]]
      exact refines.performs there body performed
  | wait body =>
      rw [show passed program s (.work worker .go) = [(task, .waited)] by
        simp only [passed, there, body]]
      exact refines.wait there body
  | suspend body =>
      rw [show passed program s (.work worker .go) = [] by simp only [passed, there, body],
        extend_nil]
      exact refines.suspend there body
  | await body =>
      rw [show passed program s (.work worker .go) = [] by simp only [passed, there, body],
        extend_nil]
      exact refines.await there body
  | ret body =>
      rw [show passed program s (.work worker .go) = [] by simp only [passed, there, body],
        extend_nil]
      exact refines.ret there body

end

end Runners
end Cppio
