import Cppio.Runners.Refinement

/-!
# The runners inside `one_step`

Each instruction of `one_step`, and of the coroutines that it resumes, is a step of the
machine that leaves open what coroutines compute, or it is not seen there.
-/

namespace Cppio
namespace Runners

open Workers (Coroutine)

variable {Worker User Own Local Key : Type} [DecidableEq Worker] [DecidableEq Key]
variable {program : User → UserInstr User Own Local} {s next : State Worker User Own Key}
variable {record : TaskId → List (Occurs User Own Local)} {coroutine : TaskId → Coroutine}
variable {delivered : TaskId → Bool} {worker : Worker} {task : TaskId} {start : Start User}
variable {pc : Pc User Own}

/-- What a step inside the `one_step` of a task leaves of the others. -/
structure OwnData (task : TaskId) (s s' : State Worker User Own Key) : Prop where
  spawned : s'.spawned = s.spawned
  frames : ∀ other ≠ task, s'.frames other = s.frames other
  resumed : ∀ other ≠ task, ∀ handle, (other, handle) ∈ s'.resumed ↔ (other, handle) ∈ s.resumed
  pc : s'.pc = s.pc
  undefined : s'.undefined = s.undefined

omit [DecidableEq Worker] [DecidableEq Key] in
theorem ownData_refl (task : TaskId) (s : State Worker User Own Key) : OwnData task s s :=
  ⟨rfl, fun _ _ => rfl, fun _ _ _ => Iff.rfl, rfl, rfl⟩

omit [DecidableEq Worker] [DecidableEq Key] in
theorem ownData_setFrames
    (task : TaskId) (s : State Worker User Own Key)
    (frames : Frames (Code User Own) (Result Own)) : OwnData task s (s.setFrames task frames) :=
  ⟨rfl, fun _ different => Function.update_of_ne different _ _, fun _ _ _ => Iff.rfl, rfl, rfl⟩

/-- The runner is inside of no other task's `one_step`. -/
def Only (task : TaskId) (pc : Pc User Own) : Prop :=
  ∀ other, pc.inside = some other → other = task

theorem only_of_inside (inside : pc.inside = some task) : Only task pc := fun _ inside' =>
  Option.some.inj (inside'.symm.trans inside)

theorem only_of_none (outside : pc.inside = none) : Only task pc := fun other inside => by
  cases inside.symm.trans outside

omit [DecidableEq Key] in
theorem OwnData.elsewhere
    {s' : State Worker User Own Key} {other : TaskId} (own : OwnData task s s')
    (before : Only task (s.pc worker)) (after : Only task pc) (different : other ≠ task) :
    Elsewhere s (s'.goto worker pc) worker pc other where
  spawned := own.spawned
  frames := own.frames other different
  resumed := own.resumed other different
  pcs := by
    change Function.update s'.pc worker pc = _
    rw [own.pc]
  before inside := different (before other inside)
  after inside := different (after other inside)

/-- A step about a task that no other runner is inside of. -/
theorem Refines.inner
    {s' : State Worker User Own Key} (delivered' : TaskId → Bool) (coroutine' : Coroutine)
    (events : List (Occurs User Own Local))
    (refines : Refines program s record coroutine delivered)
    (alone : ∀ other, (s.pc other).inside = some task → other = worker)
    (before : Only task (s.pc worker)) (after : Only task pc) (own : OwnData task s s')
    (stage : Stage program (s'.goto worker pc) task (record task ++ events) coroutine')
    (leads : ∀ key, Leads Workers.State.initial
      (((seen s' key coroutine delivered').setCoroutine task coroutine').goto worker
        (seenPc (key worker) (Function.update coroutine task coroutine') pc))) :
    Refined program (s'.goto worker pc) (extend record (events.map (Prod.mk task))) := by
  refine refines.about delivered' (own.undefined.trans refines.defined)
    (fun other different => own.elsewhere before after different) stage fun key => ?_
  have same : ∀ other ≠ worker, ∀ woken, (s'.pc other).inside = some woken →
      Function.update coroutine task coroutine' woken = coroutine woken := by
    intro other different woken there
    rw [own.pc] at there
    refine Function.update_of_ne (fun isTask => different (alone other ?_)) _ _
    rw [there, isTask]
  rw [seen_goto s' key delivered' pc same]
  exact leads key

/-- A step without an effect. -/
theorem Refines.silent
    {s' : State Worker User Own Key} (coroutine' : Coroutine)
    (refines : Refines program s record coroutine delivered)
    (alone : ∀ other, (s.pc other).inside = some task → other = worker)
    (before : Only task (s.pc worker)) (after : Only task pc) (own : OwnData task s s')
    (stage : Stage program (s'.goto worker pc) task (record task) coroutine')
    (leads : ∀ key, Leads (seen s key coroutine delivered)
      (((seen s' key coroutine delivered).setCoroutine task coroutine').goto worker
        (seenPc (key worker) (Function.update coroutine task coroutine') pc))) :
    Refined program (s'.goto worker pc) record := by
  have refined := refines.inner delivered coroutine' [] alone before after own
    (by rw [List.append_nil]; exact stage)
    fun key => (refines.reached key).trans (leads key)
  rwa [List.map_nil, extend_nil] at refined

/-- A step where no coroutine gets or gives up control. -/
theorem Refines.does
    {s' : State Worker User Own Key} (delivered' : TaskId → Bool)
    (events : List (Occurs User Own Local))
    (refines : Refines program s record coroutine delivered)
    (alone : ∀ other, (s.pc other).inside = some task → other = worker)
    (before : Only task (s.pc worker)) (after : Only task pc) (own : OwnData task s s')
    (stage : Stage program (s'.goto worker pc) task (record task ++ events) (coroutine task))
    (leads : ∀ key, Leads Workers.State.initial
      ((seen s' key coroutine delivered').goto worker (seenPc (key worker) coroutine pc))) :
    Refined program (s'.goto worker pc) (extend record (events.map (Prod.mk task))) := by
  refine refines.inner delivered' (coroutine task) events alone before after own stage
    fun key => ?_
  have same : (seen s' key coroutine delivered').setCoroutine task (coroutine task) =
      seen s' key coroutine delivered' := by
    rw [Workers.State.setCoroutine, show (seen s' key coroutine delivered').coroutine = coroutine
      from rfl, Function.update_eq_self]
    rfl
  rw [same, Function.update_eq_self]
  exact leads key

/-- A step without an effect, where no coroutine gets or gives up control. -/
theorem Refines.stays
    {s' : State Worker User Own Key}
    (refines : Refines program s record coroutine delivered)
    (alone : ∀ other, (s.pc other).inside = some task → other = worker)
    (before : Only task (s.pc worker)) (after : Only task pc) (own : OwnData task s s')
    (stage : Stage program (s'.goto worker pc) task (record task) (coroutine task))
    (leads : ∀ key, Leads (seen s key coroutine delivered)
      ((seen s' key coroutine delivered).goto worker (seenPc (key worker) coroutine pc))) :
    Refined program (s'.goto worker pc) record := by
  have refined := refines.does delivered [] alone before after own
    (by rw [List.append_nil]; exact stage) fun key => (refines.reached key).trans (leads key)
  rwa [List.map_nil, extend_nil] at refined

/-- A step that the other machine does not see. -/
theorem Refines.unseen
    {s' : State Worker User Own Key}
    (refines : Refines program s record coroutine delivered)
    (alone : ∀ other, (s.pc other).inside = some task → other = worker)
    (before : Only task (s.pc worker)) (after : Only task pc) (own : OwnData task s s')
    (stage : Stage program (s'.goto worker pc) task (record task) (coroutine task))
    (same : ∀ key, seen s' key coroutine delivered = seen s key coroutine delivered)
    (stays : ∀ key : SocketT → Key, seenPc key coroutine pc = seenPc key coroutine (s.pc worker)) :
    Refined program (s'.goto worker pc) record := by
  refine refines.stays alone before after own stage fun key => ?_
  have there := goto_self (seen s key coroutine delivered) worker
  rw [same, stays]
  exact there.symm ▸ .refl _ _ _

theorem Refines.inside
    (refines : Refines program s record coroutine delivered)
    (here : s.pc worker = pc) (inside : pc.inside = some task) :
    ∃ start, Inside program s worker task start (record task) (coroutine task) ∧
      Within program task start.code (record task) (s.frames task) pc (coroutine task) := by
  subst here
  obtain ⟨start, inside⟩ := (refines.stages task).of_inside inside
  exact ⟨start, inside, inside.within⟩

theorem Refines.fits
    (key : Worker → SocketT → Key) (refines : Refines program s record coroutine delivered)
    (here : s.pc worker = pc) (inside : pc.inside = some task) :
    ∃ quiet, Workers.Fits (seenPc (key worker) coroutine pc) quiet (s.state task)
      (coroutine task) := by
  subst here
  have holds := Workers.holds_of_inside ((inside_seenPc (key worker) coroutine _).trans inside)
  obtain ⟨-, -, fits⟩ := held_of_leads (w := seen s key coroutine delivered)
    (refines.reached key) holds
  exact fits

/-! ## Up to the innermost coroutine -/

/-- The `m_inner_handle`s lead from one coroutine to another. -/
theorem descends_cases
    {frames : Frames (Code User Own) (Result Own)} {curr handle : Handle}
    {frame own : Frame (Code User Own) (Result Own)}
    {nexts : List (Result Own → Code User Own)}
    (leads : Relation.ReflTransGen
      (fun outer inner => ∃ frame, frames.frame outer = some frame ∧
        frame.innerHandle = some inner) curr handle)
    (stacked : frames.Stacked handle frame nexts) (found : frames.frame curr = some own) :
    (own.innerHandle = none ∧ curr = handle ∧ own = frame) ∨
      ∃ inner, own.innerHandle = some inner ∧ Relation.ReflTransGen
        (fun outer inner => ∃ frame, frames.frame outer = some frame ∧
          frame.innerHandle = some inner) inner handle := by
  rcases leads.cases_head with rfl | ⟨inner, ⟨frame', found', linked⟩, rest⟩
  · obtain rfl := Option.some.inj (found.symm.trans stacked.found)
    exact Or.inl ⟨stacked.innermost, rfl, rfl⟩
  · obtain rfl := Option.some.inj (found.symm.trans found')
    exact Or.inr ⟨inner, linked, rest⟩

section

variable [Inhabited Key]

/-- `process_tasks` calls `one_step`. -/
theorem Refines.call
    (refines : Refines program s record coroutine delivered) (here : s.pc worker = .popped task)
    (runs : s.state task ≠ .wait) :
    Refined program (s.goto worker (.entered task)) record := by
  let key : Worker → SocketT → Key := fun _ _ => default
  have popped : (seen s key coroutine delivered).pc worker = .popped task := by
    simp only [seen, here, seenPc]
  have holds : ((seen s key coroutine delivered).pc worker).holds = some task := by
    rw [popped]
    rfl
  obtain ⟨born, alone, quiet, fits⟩ := held_of_leads (refines.reached key) holds
  rw [popped] at fits
  obtain ⟨-, -, suspended⟩ : quiet ∧ s.state task = .run ∧ coroutine task = .suspended := fits
  have outside : ∀ other, (s.pc other).inside ≠ some task := by
    intro other inside
    obtain rfl := alone other
      (Workers.holds_of_inside ((inside_seenPc (key other) coroutine _).trans inside))
    rw [here] at inside
    cases inside
  cases refines.stages task with
  | unborn unborn => exact absurd born (Nat.not_lt_of_le unborn)
  | finished _ _ _ _ _ is => cases suspended.symm.trans is
  | inside _ there => exact absurd there (outside _)
  | @waits start bornAt _ idle rests is =>
      refine refines.stays (fun other inside => absurd inside (outside other))
        (only_of_none (by rw [here]; rfl)) (only_of_inside rfl) (ownData_refl task s) ?_
        fun key => ?_
      · have there : ((s.goto worker (.entered task)).pc worker).inside = some task := by
          rw [State.goto_pc]
          rfl
        refine .inside bornAt there (fun other inside => ?_) (fun handle => ?_) ?_
        · by_contra different
          rw [s.goto_pc_of_ne _ different] at inside
          exact outside other inside
        · rw [State.goto_pc]
          refine ⟨fun busy => absurd busy (idle handle), ?_⟩
          rintro ⟨_, _, there⟩
          cases there
        · rw [State.goto_pc, is]
          exact .entered rests
      · refine leads_of_work worker .go refines.defined (by simp [seen, here, seenPc]) ?_
        simp only [Workers.State.work, seen, here, seenPc, runs, if_false]

end

/-- `one_step` starts at the task's own coroutine. -/
theorem Refines.root
    (refines : Refines program s record coroutine delivered) (here : s.pc worker = .entered task)
    (runs : s.state task ≠ .wait) :
    Refined program (s.goto worker (.descending task rootHandle)) record := by
  obtain ⟨start, inside, within⟩ := refines.inside here rfl
  generalize is : coroutine task = control at within
  cases within with
  | entered suspended =>
      obtain ⟨⟨handle, frame, code, nexts, stacked, point, follows⟩, halted⟩ := suspended
      refine refines.stays inside.alone (only_of_inside (by rw [here]; rfl)) (only_of_inside rfl)
        (ownData_refl task s) ?_ fun key => ?_
      · refine inside.goesOn rfl rfl rfl rfl (by rw [here]; exact nofun) nofun ?_
        rw [is]
        exact .descending stacked.awaited.leads stacked point follows halted
      · refine leads_of_work worker .go refines.defined (by simp [seen, here, seenPc]) ?_
        simp only [Workers.State.work, seen, here, seenPc, runs, if_false]

/-- `one_step` goes on to the coroutine that is awaited. -/
theorem Refines.descend
    {curr inner : Handle} {frame : Frame (Code User Own) (Result Own)}
    (refines : Refines program s record coroutine delivered)
    (here : s.pc worker = .descending task curr) (rests : Rests s task curr frame)
    (linked : frame.innerHandle = some inner) :
    Refined program (s.goto worker (.descending task inner)) record := by
  obtain ⟨start, inside, within⟩ := refines.inside here rfl
  generalize is : coroutine task = control at within
  cases within with
  | descending leads stacked point follows halted =>
      rcases descends_cases leads stacked rests.found with ⟨unlinked, -⟩ | ⟨inner', linked', rest⟩
      · cases linked.symm.trans unlinked
      · obtain rfl := Option.some.inj (linked.symm.trans linked')
        refine refines.unseen inside.alone (only_of_inside (by rw [here]; rfl))
          (only_of_inside rfl) (ownData_refl task s) ?_ (fun _ => rfl) fun key => ?_
        · refine inside.goesOn rfl rfl rfl rfl (by rw [here]; exact nofun) nofun ?_
          rw [is]
          exact .descending rest stacked point follows halted
        · rw [here]
          rfl

/-- `one_step` has come to the innermost coroutine. -/
theorem Refines.innermost
    {curr : Handle} {frame : Frame (Code User Own) (Result Own)}
    (refines : Refines program s record coroutine delivered)
    (here : s.pc worker = .descending task curr) (rests : Rests s task curr frame)
    (unlinked : frame.innerHandle = none) :
    Refined program (s.goto worker (.walking task curr)) record := by
  obtain ⟨start, inside, within⟩ := refines.inside here rfl
  generalize is : coroutine task = control at within
  cases within with
  | descending leads stacked point follows halted =>
      rcases descends_cases leads stacked rests.found with ⟨-, rfl, rfl⟩ | ⟨inner', linked, -⟩
      · refine refines.unseen inside.alone (only_of_inside (by rw [here]; rfl))
          (only_of_inside rfl) (ownData_refl task s) ?_ (fun _ => rfl) fun key => ?_
        · refine inside.goesOn rfl rfl rfl rfl (by rw [here]; exact nofun) nofun ?_
          rw [is]
          exact .walking stacked (.rests point follows halted)
        · simp [here, seenPc, is]
      · cases unlinked.symm.trans linked

/-! ## Around the coroutines -/

/-- The inner loop of `one_step` resumes the coroutine that it has come to. -/
theorem Refines.walk
    {curr : Handle}
    (refines : Refines program s record coroutine delivered)
    (here : s.pc worker = .walking task curr) (runs : s.state task ≠ .wait) :
    Refined program (s.goto worker (.resuming task curr)) record := by
  obtain ⟨start, inside, within⟩ := refines.inside here rfl
  generalize is : coroutine task = control at within
  cases within with
  | walking stacked enters =>
      have stage : Stage program (s.goto worker (.resuming task curr)) task (record task)
          (coroutine task) := by
        refine inside.goesOn rfl rfl rfl rfl (by rw [here]; exact nofun) nofun ?_
        rw [is]
        exact .resuming stacked enters
      cases enters with
      | rests =>
          refine refines.stays inside.alone (only_of_inside (by rw [here]; rfl))
            (only_of_inside rfl) (ownData_refl task s) stage fun key => ?_
          refine leads_of_work worker .go refines.defined (by simp [seen, here, seenPc, is]) ?_
          simp [Workers.State.work, seen, here, seenPc, is, runs]
      | resumes =>
          refine refines.unseen inside.alone (only_of_inside (by rw [here]; rfl))
            (only_of_inside rfl) (ownData_refl task s) stage (fun _ => rfl) fun key => ?_
          simp [here, seenPc, is]

/-- `one_step` reads `m_state` after a coroutine that has suspended. -/
theorem Refines.suspended
    {curr : Handle} {frame : Frame (Code User Own) (Result Own)}
    (refines : Refines program s record coroutine delivered)
    (here : s.pc worker = .resumed task curr) (rests : Rests s task curr frame)
    (unfinished : frame.done = false) :
    Refined program (s.goto worker (.checked task)) record := by
  obtain ⟨start, inside, within⟩ := refines.inside here rfl
  generalize is : coroutine task = control at within
  cases within with
  | suspended suspended =>
      refine refines.stays inside.alone (only_of_inside (by rw [here]; rfl)) (only_of_inside rfl)
        (ownData_refl task s) ?_ fun key => ?_
      · refine inside.goesOn rfl rfl rfl rfl (by rw [here]; exact nofun) nofun ?_
        rw [is]
        exact .checked suspended
      · refine leads_of_work worker .go refines.defined (by simp [seen, here, seenPc, is]) ?_
        simp [Workers.State.work, seen, here, seenPc, is]
  | returned stacked final =>
      obtain rfl := Option.some.inj (rests.found.symm.trans stacked.found)
      simp [Frame.done, final] at unfinished

/-- The task's own coroutine has returned. -/
theorem Refines.finish
    {curr : Handle} {frame : Frame (Code User Own) (Result Own)}
    (refines : Refines program s record coroutine delivered)
    (here : s.pc worker = .resumed task curr) (rests : Rests s task curr frame)
    (finished : frame.done = true) (unlinked : frame.outerHandle = none) :
    Refined program (s.goto worker (.returned task .done)) record := by
  obtain ⟨start, inside, within⟩ := refines.inside here rfl
  generalize is : coroutine task = control at within
  cases within with
  | suspended _ found unfinished =>
      obtain rfl := Option.some.inj (rests.found.symm.trans found)
      cases finished.symm.trans unfinished
  | returned stacked final returned returns =>
      obtain rfl := Option.some.inj (rests.found.symm.trans stacked.found)
      have awaited := stacked.awaited
      rw [unlinked] at awaited
      cases awaited
      cases returns with
      | finishes recorded =>
          refine refines.silent .finished inside.alone (only_of_inside (by rw [here]; rfl))
            (only_of_none rfl) (ownData_refl task s) ?_ fun key => ?_
          · refine .finished inside.born (inside.outside rfl nofun)
              (inside.idle (by rw [here]; exact nofun)) ?_ recorded rfl
            exact ⟨frame, rests.found, final, returned⟩
          · refine leads_of_work worker .finish refines.defined
              (by simp [seen, here, seenPc, is]) ?_
            simp [Workers.State.work, seen, here, seenPc, is]

/-- The inner loop of `one_step` goes from a coroutine that has returned to the one that
awaits it. -/
theorem Refines.unwind
    {curr outer : Handle} {frame awaiting : Frame (Code User Own) (Result Own)}
    (refines : Refines program s record coroutine delivered)
    (here : s.pc worker = .resumed task curr) (rests : Rests s task curr frame)
    (finished : frame.done = true) (linked : frame.outerHandle = some outer)
    (restsOuter : Rests s task outer awaiting) :
    Refined program
      ((s.setFrames task ((s.frames task).put outer (some awaiting.resumable))).goto worker
        (.walking task outer)) record := by
  obtain ⟨start, inside, within⟩ := refines.inside here rfl
  generalize is : coroutine task = control at within
  cases within with
  | suspended _ found unfinished =>
      obtain rfl := Option.some.inj (rests.found.symm.trans found)
      cases finished.symm.trans unfinished
  | @returned _ _ _ value stacked final returned returns =>
      obtain rfl := Option.some.inj (rests.found.symm.trans stacked.found)
      have awaited := stacked.awaited
      rw [linked] at awaited
      cases awaited with
      | @inner _ _ _ next nexts below found _ awaits rest =>
          obtain rfl := Option.some.inj (restsOuter.found.symm.trans found)
          cases returns with
          | goesOn follows =>
              let frames := (s.frames task).put outer (some awaiting.resumable)
              have stackedOuter : frames.Stacked outer awaiting.resumable nexts :=
                { found := Frames.put_frame_self _ _ _
                  innermost := rfl
                  awaited := rest.congr fun other less => Frames.put_frame_of_ne _ _ less.ne
                  bound := below.trans stacked.bound }
              have taken : (frames.frame curr).bind Frame.value = some value := by
                rw [Frames.put_frame_of_ne _ _ below.ne', rests.found]
                exact returned
              refine refines.unseen inside.alone (only_of_inside (by rw [here]; rfl))
                (only_of_inside rfl) (ownData_setFrames task s frames) ?_ (fun _ => rfl)
                fun key => ?_
              · refine inside.goesOn rfl rfl rfl rfl (by rw [here]; exact nofun) nofun ?_
                rw [is, show ((s.setFrames task frames).goto worker
                  (.walking task outer)).frames task = frames from Function.update_self ..]
                exact .walking stackedOuter (.resumes awaits below taken follows)
              · simp [here, seenPc, is]

/-- `one_step` returns for a task that has not finished. -/
theorem Refines.load
    (refines : Refines program s record coroutine delivered)
    (here : s.pc worker = .checked task) :
    Refined program (s.goto worker (.returned task (s.state task))) record := by
  obtain ⟨start, inside, within⟩ := refines.inside here rfl
  generalize is : coroutine task = control at within
  cases within with
  | checked suspended =>
      refine refines.stays inside.alone (only_of_inside (by rw [here]; rfl)) (only_of_none rfl)
        (ownData_refl task s) ?_ fun key => ?_
      · exact .waits inside.born (inside.outside rfl nofun)
          (inside.idle (by rw [here]; exact nofun)) suspended is
      · refine leads_of_work worker .go refines.defined (by simp [seen, here, seenPc]) ?_
        simp only [Workers.State.work, seen, here, seenPc]

/-! ## What a runner cannot do -/

/-- Where `one_step` looks at a frame, the frame is there. -/
theorem Within.found
    {code : Code User Own} {events : List (Occurs User Own Local)}
    {frames : Frames (Code User Own) (Result Own)} {control : Coroutine} {own : TaskId}
    {curr : Handle}
    (within : Within program task code events frames pc control)
    (looks : pc.looksAt = some (own, curr)) :
    own = task ∧ ∃ frame, frames.frame curr = some frame := by
  cases within with
  | descending leads stacked =>
      obtain ⟨rfl, rfl⟩ := Prod.mk.inj (Option.some.inj looks)
      rcases leads.cases_head with rfl | ⟨inner, ⟨frame, found, -⟩, -⟩
      · exact ⟨rfl, _, stacked.found⟩
      · exact ⟨rfl, frame, found⟩
  | walking stacked | resuming stacked | returned stacked =>
      obtain ⟨rfl, rfl⟩ := Prod.mk.inj (Option.some.inj looks)
      exact ⟨rfl, _, stacked.found⟩
  | suspended _ found =>
      obtain ⟨rfl, rfl⟩ := Prod.mk.inj (Option.some.inj looks)
      exact ⟨rfl, _, found⟩
  | entered | executing | parking | checked => cases looks

theorem inside_of_looksAt
    {curr : Handle} (looks : pc.looksAt = some (task, curr)) :
    pc.inside = some task ∧ pc.Between := by
  cases pc with
  | descending | walking | resuming | resumed | left =>
      obtain ⟨rfl, -⟩ := Prod.mk.inj (Option.some.inj looks)
      exact ⟨rfl, nofun⟩
  | _ => cases looks

/-- A runner that is inside `one_step` can use the frame that it looks at. -/
theorem Refines.rests
    {curr : Handle} (refines : Refines program s record coroutine delivered)
    (here : s.pc worker = pc) (looks : pc.looksAt = some (task, curr)) :
    ∃ frame, Rests s task curr frame := by
  obtain ⟨insidePc, between⟩ := inside_of_looksAt looks
  obtain ⟨start, inside, within⟩ := refines.inside here insidePc
  obtain ⟨-, frame, found⟩ := within.found looks
  exact ⟨frame, inside.idle (here ▸ between task) curr, found⟩

/-- A runner does not use a coroutine that it must not, and no assertion fails. -/
theorem Refines.not_lost
    [Inhabited Key] (refines : Refines program s record coroutine delivered)
    (here : s.pc worker = pc) : ¬Lost s pc := by
  intro lost
  cases lost with
  | asserts waiting =>
      obtain ⟨quiet, fits⟩ := refines.fits (fun _ _ => default) here rfl
      cases waiting.symm.trans fits.2.1
  | frame looks gone =>
      obtain ⟨frame, rests⟩ := refines.rests here looks
      exact gone frame rests
  | outer rests finished linked gone =>
      obtain ⟨start, inside, within⟩ := refines.inside here rfl
      generalize coroutine _ = control at within
      cases within with
      | suspended _ found unfinished =>
          obtain rfl := Option.some.inj (rests.found.symm.trans found)
          cases finished.symm.trans unfinished
      | returned stacked =>
          obtain rfl := Option.some.inj (rests.found.symm.trans stacked.found)
          have awaited := stacked.awaited
          rw [linked] at awaited
          cases awaited with
          | inner _ found =>
              exact gone _ ⟨inside.idle (by rw [here]; exact nofun) _, found⟩
  | final rests final =>
      obtain ⟨start, inside, within⟩ := refines.inside here rfl
      generalize coroutine _ = control at within
      cases within with
      | resuming stacked enters =>
          obtain rfl := Option.some.inj (rests.found.symm.trans stacked.found)
          cases enters with
          | rests point | resumes point => cases final.symm.trans point
  | value rests point absent =>
      obtain ⟨start, inside, within⟩ := refines.inside here rfl
      generalize coroutine _ = control at within
      cases within with
      | resuming stacked enters =>
          obtain rfl := Option.some.inj (rests.found.symm.trans stacked.found)
          cases enters with
          | rests point' => cases point.symm.trans point'
          | resumes point' _ returned =>
              obtain ⟨rfl, -⟩ := Point.resumption.inj (point.symm.trans point')
              cases absent.symm.trans returned

/-- The inner loop of `one_step` comes to no coroutine that it does not resume. -/
theorem Refines.not_over
    [Inhabited Key] {curr : Handle} {frame : Frame (Code User Own) (Result Own)}
    (refines : Refines program s record coroutine delivered)
    (here : s.pc worker = .walking task curr) (rests : Rests s task curr frame) :
    ¬(frame.done = true ∨ s.state task = .wait) := by
  rintro (finished | waiting)
  · obtain ⟨start, inside, within⟩ := refines.inside here rfl
    generalize coroutine _ = control at within
    cases within with
    | walking stacked enters =>
        obtain rfl := Option.some.inj (rests.found.symm.trans stacked.found)
        cases enters with
        | rests point | resumes point => simp [Frame.done, point] at finished
  · obtain ⟨quiet, fits⟩ := refines.fits (fun _ _ => default) here rfl
    rw [seenPc] at fits
    split_ifs at fits
    · cases waiting.symm.trans fits.2.1
    · cases waiting.symm.trans fits.2.1

theorem Refines.not_left
    {curr : Handle} (refines : Refines program s record coroutine delivered) :
    s.pc worker ≠ .left task curr := by
  intro here
  obtain ⟨start, inside, within⟩ := refines.inside here rfl
  generalize coroutine _ = control at within
  cases within

/-! ## In the coroutines -/

theorem within_of_follows
    {code here : Code User Own} {events : List (Occurs User Own Local)}
    {frames : Frames (Code User Own) (Result Own)} {curr : Handle}
    {frame : Frame (Code User Own) (Result Own)} {nexts : List (Result Own → Code User Own)}
    (stacked : frames.Stacked curr frame nexts) (follows : Follows program code events nexts here) :
    Within program task code events frames (.executing task curr frame here) .running := by
  cases here with
  | park steps next =>
      exact .parking stacked follows.leads follows.operates.2 follows.below
  | _ => exact .executing stacked follows nofun

/-- Where the code of a coroutine is on its way to suspension in an operation, the operation
starts. -/
theorem leads_arrive
    {w : Workers.State Worker Key} {here : Code User Own} (key : SocketT → Key)
    (worker : Worker) (task : TaskId) (defined : w.undefined = false) (operates : here.Operates) :
    Leads (w.goto worker (.executing task none))
      (w.goto worker (.executing task (parking key here))) := by
  cases here with
  | park steps next =>
      obtain ⟨⟨operation, rfl, -⟩, -⟩ := operates
      refine leads_of_work worker (.start (operation.map key)) defined (by simp) ?_
      simp only [Workers.State.work, goto_pc, parking, Operation.parkSteps_map, goto_goto]
  | _ => exact .refl _ _ _

omit [DecidableEq Worker] [DecidableEq Key] in
/-- A runner executes a coroutine. -/
theorem busy_insert
    {s' : State Worker User Own Key} {curr : Handle} {here : Code User Own}
    {frame : Frame (Code User Own) (Result Own)}
    (idle : ∀ handle, (task, handle) ∉ s.resumed)
    (resumed : s'.resumed = insert (task, curr) s.resumed) (handle : Handle) :
    (task, handle) ∈ s'.resumed ↔ ∃ frame' here',
      (.executing task curr frame here : Pc User Own) = .executing task handle frame' here' := by
  rw [resumed, Finset.mem_insert]
  constructor
  · rintro (same | busy)
    · obtain ⟨-, rfl⟩ := Prod.mk.inj same
      exact ⟨frame, here, rfl⟩
    · exact absurd busy (idle handle)
  · rintro ⟨frame', here', same⟩
    obtain ⟨-, rfl, -⟩ := Pc.executing.inj same
    exact Or.inl rfl

/-- `curr.resume()` on a coroutine that was suspended. -/
theorem Refines.resume
    {curr : Handle} {frame : Frame (Code User Own) (Result Own)} {code : Code User Own}
    (refines : Refines program s record coroutine delivered)
    (here : s.pc worker = .resuming task curr) (rests : Rests s task curr frame)
    (point : frame.point = .code code) :
    Refined program ({ s with resumed := insert (task, curr) s.resumed }.goto worker
      (.executing task curr frame code)) record := by
  obtain ⟨start, inside, within⟩ := refines.inside here rfl
  generalize is : coroutine task = control at within
  cases within with
  | resuming stacked enters =>
      obtain rfl := Option.some.inj (rests.found.symm.trans stacked.found)
      cases enters with
      | resumes point' => cases point.symm.trans point'
      | rests point' follows halted =>
          obtain rfl := Point.code.inj (point.symm.trans point')
          have own : OwnData task s { s with resumed := insert (task, curr) s.resumed } := by
            refine ⟨rfl, fun _ _ => rfl, fun other different handle => ?_, rfl, rfl⟩
            simp [different]
          refine refines.silent .running inside.alone (only_of_inside (by rw [here]; rfl))
            (only_of_inside rfl) own ?_ fun key => ?_
          · refine inside.stage rfl rfl rfl
              (busy_insert (inside.idle (by rw [here]; exact nofun)) rfl) ?_
            exact within_of_follows stacked follows
          · refine Machine.ReachableBy.trans (leads_of_work worker .go refines.defined
              (by simp [seen, here, seenPc, is]) ?_)
              (leads_arrive (key worker) worker task refines.defined follows.operates)
            simp [Workers.State.work, seen, here, seenPc, is]

/-- `curr.resume()` on a coroutine whose child has returned. -/
theorem Refines.take
    {curr child : Handle} {frame : Frame (Code User Own) (Result Own)}
    {next : Result Own → Code User Own} {value : Result Own}
    (refines : Refines program s record coroutine delivered)
    (here : s.pc worker = .resuming task curr) (rests : Rests s task curr frame)
    (point : frame.point = .resumption child next)
    (returned : ((s.frames task).frame child).bind Frame.value = some value) :
    Refined program ({ s.setFrames task ((s.frames task).put child none) with
      resumed := insert (task, curr) s.resumed }.goto worker
      (.executing task curr frame (next value))) record := by
  obtain ⟨start, inside, within⟩ := refines.inside here rfl
  generalize is : coroutine task = control at within
  cases within with
  | resuming stacked enters =>
      obtain rfl := Option.some.inj (rests.found.symm.trans stacked.found)
      cases enters with
      | rests point' => cases point.symm.trans point'
      | resumes point' younger returned' follows =>
          obtain ⟨rfl, rfl⟩ := Point.resumption.inj (point.symm.trans point')
          obtain rfl := Option.some.inj (returned.symm.trans returned')
          let frames := (s.frames task).put child none
          let s' := { s.setFrames task frames with resumed := insert (task, curr) s.resumed }
          have older : ∀ other ≤ curr, frames.frame other = (s.frames task).frame other :=
            fun other most => Frames.put_frame_of_ne _ _ (most.trans_lt younger).ne
          have stackedAfter : frames.Stacked curr frame _ :=
            { found := (older curr le_rfl).trans stacked.found
              innermost := stacked.innermost
              awaited := stacked.awaited.congr fun other less => older other less.le
              bound := stacked.bound }
          have own : OwnData task s s' := by
            refine ⟨rfl, fun _ different => Function.update_of_ne different _ _,
              fun other different handle => ?_, rfl, rfl⟩
            simp [s', different]
          refine refines.stays inside.alone (only_of_inside (by rw [here]; rfl))
            (only_of_inside rfl) own ?_ fun key => ?_
          · refine inside.stage rfl rfl rfl
              (busy_insert (inside.idle (by rw [here]; exact nofun)) rfl) ?_
            rw [is, show (s'.goto worker (.executing task curr frame (next value))).frames task =
              frames from Function.update_self ..]
            exact within_of_follows stackedAfter follows
          · have there : (seen s key coroutine delivered).pc worker = .executing task none := by
              simp [seen, here, seenPc, is]
            have arrives : Leads ((seen s key coroutine delivered).goto worker _) _ :=
              leads_arrive (key worker) worker task refines.defined follows.operates
            rw [← there, goto_self] at arrives
            exact arrives

end Runners
end Cppio
