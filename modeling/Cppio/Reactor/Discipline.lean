import Cppio.Reactor.Run
import Cppio.Task.Chain

/-!
# The ready queue

Every task that was spawned is in one of three standings: it runs and stands in
`m_tasks` once, it waits outside of `m_tasks` with at most one timer or
registration to wake it, or its own coroutine is done and nothing refers to it.
The operations keep `m_state`, the queue and the sources of wake-ups in step.
-/

namespace Cppio
namespace Reactor

variable {User Own Local Key Outside : Type} [DecidableEq Key]

/-- How many registrations and timers would wake the task. -/
def pending (s : Reactor User Own Key Outside) (task : TaskId) : Nat :=
  s.epoll.pending task + s.timers.pending task

/-- The code, and what awaits it, park as the operations do. -/
def ParkOnce (nexts : List (Result Own → Code User Own)) (code : Code User Own) : Prop :=
  code.ParksOnce ∧ ∀ next ∈ nexts, ∀ result, (next result).ParksOnce

/-- How a task stands, with `due` about to be woken. -/
inductive Standing
    (s : Reactor User Own Key Outside) (due : List TaskId) (task : TaskId) : Prop
  /-- The task is not spawned. -/
  | unborn (unborn : s.spawned ≤ task) (inactive : task ∉ s.active)
      (state : s.state task = .run) (count : s.tasks.count task = 0)
      (pending : s.pending task + due.count task = 0)
  /-- The task runs. -/
  | ready (born : task < s.spawned) (active : task ∈ s.active)
      (suspended : (s.frames task).SuspendedAt ParkOnce)
      (state : s.state task = .run) (count : s.tasks.count task = 1)
      (pending : s.pending task + due.count task = 0)
  /-- The task waits. -/
  | parked (born : task < s.spawned) (active : task ∈ s.active)
      (suspended : (s.frames task).SuspendedAt ParkOnce)
      (state : s.state task = .wait) (count : s.tasks.count task = 0)
      (pending : s.pending task + due.count task ≤ 1)
  /-- The task's own coroutine is done. -/
  | done (born : task < s.spawned) (inactive : task ∉ s.active) (done : s.Done task)
      (count : s.tasks.count task = 0) (pending : s.pending task + due.count task = 0)

/-- Nothing but the sources of its wake-ups has changed for a task. -/
structure Unmoved (task : TaskId) (s s' : Reactor User Own Key Outside) : Prop where
  born : task < s'.spawned ↔ task < s.spawned
  active : task ∈ s'.active ↔ task ∈ s.active
  count : s'.tasks.count task = s.tasks.count task
  state : s'.state task = s.state task
  frames : s'.frames task = s.frames task

/-- Nothing has changed for a task, but for sources that are gone. -/
structure SameFor (task : TaskId) (s s' : Reactor User Own Key Outside) : Prop
    extends Unmoved task s s' where
  pending : s'.pending task ≤ s.pending task

omit [DecidableEq Key] in
theorem SameFor.refl (task : TaskId) (s : Reactor User Own Key Outside) : SameFor task s s :=
  ⟨⟨Iff.rfl, Iff.rfl, rfl, rfl, rfl⟩, le_rfl⟩

omit [DecidableEq Key] in
theorem SameFor.trans
    {task : TaskId} {s s' s'' : Reactor User Own Key Outside}
    (same : SameFor task s s') (same' : SameFor task s' s'') : SameFor task s s'' where
  born := same'.born.trans same.born
  active := same'.active.trans same.active
  count := same'.count.trans same.count
  state := same'.state.trans same.state
  frames := same'.frames.trans same.frames
  pending := same'.pending.trans same.pending

omit [DecidableEq Key] in
/-- A source may turn into a wake-up that is due. -/
theorem Standing.move
    {s s' : Reactor User Own Key Outside} {due due' : List TaskId} {task : TaskId}
    (standing : Standing s due task) (unmoved : Unmoved task s s')
    (fewer : s'.pending task + due'.count task ≤ s.pending task + due.count task) :
    Standing s' due' task := by
  cases standing with
  | unborn unborn inactive state count pending =>
      refine .unborn ?_ (mt unmoved.active.mp inactive) (unmoved.state.trans state)
        (unmoved.count.trans count) (Nat.le_zero.mp (pending ▸ fewer))
      exact Nat.le_of_not_lt (mt unmoved.born.mp (Nat.not_lt_of_le unborn))
  | ready born active suspended state count pending =>
      exact .ready (unmoved.born.mpr born) (unmoved.active.mpr active)
        (unmoved.frames ▸ suspended) (unmoved.state.trans state) (unmoved.count.trans count)
        (Nat.le_zero.mp (pending ▸ fewer))
  | parked born active suspended state count pending =>
      exact .parked (unmoved.born.mpr born) (unmoved.active.mpr active)
        (unmoved.frames ▸ suspended) (unmoved.state.trans state) (unmoved.count.trans count)
        (fewer.trans pending)
  | done born inactive done count pending =>
      refine .done (unmoved.born.mpr born) (mt unmoved.active.mp inactive) ?_
        (unmoved.count.trans count) (Nat.le_zero.mp (pending ▸ fewer))
      rw [Done, unmoved.frames]
      exact done

omit [DecidableEq Key] in
theorem Standing.congr
    {s s' : Reactor User Own Key Outside} {due : List TaskId} {task : TaskId}
    (standing : Standing s due task) (same : SameFor task s s') : Standing s' due task :=
  standing.move same.toUnmoved (Nat.add_le_add_right same.pending _)

/-! ## Spawns and other deeds -/

omit [DecidableEq Key] in
theorem sameFor_spawn
    (s : Reactor User Own Key Outside) (start : Start User) {task : TaskId}
    (other : task ≠ s.spawned) : SameFor task s (s.spawn start) where
  born := Nat.lt_succ_iff.trans ⟨fun most => Nat.lt_of_le_of_ne most other, Nat.le_of_lt⟩
  active := by simp [spawn, other]
  count := by simp [spawn, List.count_append, other.symm]
  state := rfl
  frames := Function.update_of_ne other _ _
  pending := le_rfl

omit [DecidableEq Key] in
/-- A spawned task joins the queue. -/
theorem Standing.spawn
    {s : Reactor User Own Key Outside} {due : List TaskId} {task : TaskId}
    (standing : Standing s due task) (start : Start User) :
    Standing (s.spawn start) due task := by
  by_cases new : task = s.spawned
  · subst new
    cases standing with
    | unborn unborn inactive state count pending =>
        refine .ready (Nat.lt_succ_self _) (Finset.mem_insert_self _ _) ?_ state ?_ pending
        · change (Function.update s.frames s.spawned _ s.spawned).SuspendedAt ParkOnce
          rw [Function.update_self]
          exact Frames.suspendedAt_ofCode ⟨Code.parksOnce_code start, by simp⟩
        · simp [Reactor.spawn, List.count_append, count]
    | ready born => exact absurd born (lt_irrefl _)
    | parked born => exact absurd born (lt_irrefl _)
    | done born => exact absurd born (lt_irrefl _)
  · exact standing.congr (sameFor_spawn s start new)

theorem sameFor_deed
    (s : Reactor User Own Key Outside) (deed : Deed User Key) {task : TaskId}
    (other : task ≠ s.spawned) : SameFor task s (s.deed deed) := by
  cases deed with
  | spawn start => exact sameFor_spawn s start other
  | close key =>
      exact ⟨⟨Iff.rfl, Iff.rfl, rfl, rfl, rfl⟩,
        Nat.add_le_add_right (s.epoll.pending_forget_le key task) _⟩
  | stop => exact ⟨⟨Iff.rfl, Iff.rfl, rfl, rfl, rfl⟩, le_rfl⟩

theorem Standing.deed
    {s : Reactor User Own Key Outside} {due : List TaskId} {task : TaskId}
    (standing : Standing s due task) (deed : Deed User Key) :
    Standing (s.deed deed) due task := by
  cases deed with
  | spawn start => exact standing.spawn start
  | close key =>
      exact standing.congr ⟨⟨Iff.rfl, Iff.rfl, rfl, rfl, rfl⟩,
        Nat.add_le_add_right (s.epoll.pending_forget_le key task) _⟩
  | stop => exact standing.congr ⟨⟨Iff.rfl, Iff.rfl, rfl, rfl, rfl⟩, le_rfl⟩

/-! ## The task whose coroutines run -/

/-- The other tasks have their standings, and the task is active and not in the
queue.  At least `base` tasks are spawned. -/
structure Current (base : Nat) (s : Reactor User Own Key Outside) (task : TaskId) : Prop where
  others : ∀ other ≠ task, Standing s [] other
  born : task < s.spawned
  active : task ∈ s.active
  count : s.tasks.count task = 0
  defined : s.undefined = false
  pc : s.pc = .processing
  spawned : base ≤ s.spawned

theorem Current.deed
    {base : Nat} {s : Reactor User Own Key Outside} {task : TaskId}
    (current : Current base s task) (deed : Deed User Key) :
    Current base (s.deed deed) task ∧ SameFor task s (s.deed deed) := by
  have same := sameFor_deed s deed (Nat.ne_of_lt current.born)
  refine ⟨?_, same⟩
  exact
    { others := fun other different => (current.others other different).deed deed
      born := same.born.mpr current.born
      active := same.active.mpr current.active
      count := same.count.trans current.count
      defined := by cases deed with | _ => exact current.defined
      pc := by cases deed with | _ => exact current.pc
      spawned := by
        cases deed with
        | spawn start => exact current.spawned.trans (Nat.le_succ _)
        | _ => exact current.spawned }

theorem Current.deeds
    {base : Nat} {s : Reactor User Own Key Outside} {task : TaskId}
    (current : Current base s task) (deeds : List (Deed User Key)) :
    Current base (deeds.foldl Reactor.deed s) task ∧
      SameFor task s (deeds.foldl Reactor.deed s) := by
  induction deeds generalizing s with
  | nil => exact ⟨current, .refl task s⟩
  | cons deed deeds inductionHypothesis =>
      obtain ⟨currentNext, same⟩ := current.deed deed
      obtain ⟨currentLast, same'⟩ := inductionHypothesis currentNext
      exact ⟨currentLast, same.trans same'⟩

omit [DecidableEq Key] in
/-- The task's own data may change. -/
theorem Current.congr
    {base : Nat} {s s' : Reactor User Own Key Outside} {task : TaskId}
    (current : Current base s task) (same : ∀ other ≠ task, SameFor other s s')
    (spawned : s'.spawned = s.spawned) (active : s'.active = s.active) (tasks : s'.tasks = s.tasks)
    (defined : s'.undefined = s.undefined) (pc : s'.pc = s.pc) : Current base s' task where
  others := fun other different => (current.others other different).congr (same other different)
  born := spawned ▸ current.born
  active := active ▸ current.active
  count := tasks ▸ current.count
  defined := defined.trans current.defined
  pc := pc.trans current.pc
  spawned := spawned ▸ current.spawned

/-- An effect may be accompanied by deeds of other threads. -/
theorem Current.meanwhile
    {base : Nat} {s : Reactor User Own Key Outside} {task : TaskId}
    (current : Current base s task) (outside : Outside) (deeds : List (Deed User Key)) :
    Current base (deeds.foldl Reactor.deed { s with outside := outside }) task ∧
      SameFor task s (deeds.foldl Reactor.deed { s with outside := outside }) := by
  have same : ∀ other, SameFor other s { s with outside := outside } :=
    fun other => ⟨⟨Iff.rfl, Iff.rfl, rfl, rfl, rfl⟩, le_rfl⟩
  have currentHere : Current base { s with outside := outside } task :=
    current.congr (fun other _ => same other) rfl rfl rfl rfl rfl
  obtain ⟨currentNext, sameNext⟩ := currentHere.deeds deeds
  exact ⟨currentNext, (same task).trans sameNext⟩

omit [DecidableEq Key] in
/-- The task may be handed over to epoll or to the timer pool. -/
theorem Current.handOver
    {base : Nat} {s : Reactor User Own Key Outside} {task : TaskId}
    (current : Current base s task) {epoll : Epoll Key} {timers : TimerPool TaskId}
    (sources : ∀ other, epoll.pending other + timers.pending other ≤
      s.pending other + if task = other then 1 else 0) :
    Current base { s with epoll := epoll, timers := timers } task := by
  refine current.congr (fun other different => ⟨⟨Iff.rfl, Iff.rfl, rfl, rfl, rfl⟩, ?_⟩)
    rfl rfl rfl rfl rfl
  have fewer := sources other
  rw [if_neg different.symm] at fewer
  exact fewer

/-- An effect adds at most the source that it hands the task over to. -/
theorem Current.perform
    {base : Nat} {s : Reactor User Own Key Outside} {task : TaskId}
    (current : Current base s task)
    (surroundings : Surroundings User Own Local Key Outside) (effect : Effect User Local) :
    Current base (perform surroundings task effect s).2 task ∧
      (perform surroundings task effect s).2.state task = s.state task ∧
      (perform surroundings task effect s).2.pending task ≤
        s.pending task + if effect.isArm then 1 else 0 := by
  cases effect with
  | syscall call =>
      obtain ⟨currentNext, same⟩ := current.meanwhile (surroundings.syscall call s.outside).2.2
        (surroundings.syscall call s.outside).2.1
      exact ⟨currentNext, same.state, same.pending⟩
  | overlapped =>
      refine ⟨current.congr (fun other _ => ⟨⟨Iff.rfl, Iff.rfl, rfl, rfl, rfl⟩, le_rfl⟩)
        rfl rfl rfl rfl rfl, rfl, le_rfl⟩
  | success => exact ⟨current, rfl, le_rfl⟩
  | register interest sock =>
      simp only [Reactor.perform]
      cases surroundings.epollCtl s.outside sock with
      | none => exact ⟨current, rfl, Nat.le_add_right _ _⟩
      | some key =>
          have sources : ∀ other,
              (s.epoll.add ⟨key, interest, task⟩).pending other + s.timers.pending other ≤
                s.pending other + if task = other then 1 else 0 := by
            intro other
            have more := s.epoll.pending_add_le ⟨key, interest, task⟩ other
            simp only [pending] at *
            omega
          exact ⟨current.handOver sources, rfl, (sources task).trans (by simp [Effect.isArm])⟩
  | startTimer delay =>
      have sources : ∀ other, s.epoll.pending other +
          (s.timers.add (surroundings.now s.outside) delay task).pending other ≤
            s.pending other + if task = other then 1 else 0 := by
        intro other
        have more := s.timers.pending_add_le (surroundings.now s.outside) delay task other
        simp only [pending] at *
        omega
      exact ⟨current.handOver sources, rfl, (sources task).trans (by simp [Effect.isArm])⟩
  | perform effect =>
      obtain ⟨currentNext, same⟩ := current.meanwhile (surroundings.perform effect s.outside).2.2
        (surroundings.perform effect s.outside).2.1
      exact ⟨currentNext, same.state, same.pending⟩
  | spawn start =>
      obtain ⟨currentNext, same⟩ := current.deed (.spawn start)
      exact ⟨currentNext, same.state, same.pending⟩

omit [DecidableEq Key] in
/-- `m_state` of the task may change. -/
theorem Current.setState
    {base : Nat} {s : Reactor User Own Key Outside} {task : TaskId}
    (current : Current base s task) (state : ScheduleType) :
    Current base (s.setState task state) task :=
  current.congr
    (fun _ different => ⟨⟨Iff.rfl, Iff.rfl, rfl, Function.update_of_ne different _ _, rfl⟩, le_rfl⟩)
    rfl rfl rfl rfl rfl

/-- How far the running coroutine is on its way to a suspension. -/
inductive Phase
    (s : Reactor User Own Key Outside) (task : TaskId)
    (instr : Instr (Code User Own) (Effect User Local) (Result Own) (Effect.Reply Own)) : Prop
  | calm (calm : Code.Calm instr) (state : s.state task = .run) (pending : s.pending task = 0)
  | parking {steps : List (ParkStep SocketT)} {next : Code User Own}
      (parks : instr = Code.parkInstr next steps) (parksOnce : next.ParksOnce)
      (state : s.state task = .run ∨ s.state task = .wait)
      (waits : steps.count .wait = if s.state task = .run then 1 else 0)
      (arms : s.pending task + steps.countP ParkStep.isArm ≤ 1)

omit [DecidableEq Key] in
/-- At the start of code that parks as the operations do. -/
theorem phase_of_parksOnce
    {s : Reactor User Own Key Outside} {task : TaskId} {code : Code User Own}
    (program : User → UserInstr User Own Local) (parksOnce : code.ParksOnce)
    (state : s.state task = .run) (pending : s.pending task = 0) :
    Phase s task (code.instr program) := by
  rcases Code.calm_or_park program parksOnce with calm | ⟨steps, next, parks, waits, arms, after⟩
  · exact .calm calm state pending
  · exact .parking parks after (Or.inl state) (by rw [waits, if_pos state])
      (by rw [pending, Nat.zero_add]; exact arms)

omit [DecidableEq Key] in
/-- A coroutine that awaits or returns is not on its way to suspension. -/
theorem Phase.calm_of
    {s : Reactor User Own Key Outside} {task : TaskId}
    {instr : Instr (Code User Own) (Effect User Local) (Result Own) (Effect.Reply Own)}
    (phase : Phase s task instr) (suspend : ∀ after, instr ≠ .suspend after)
    (wait : ∀ after, instr ≠ .wait after)
    (perform : ∀ effect after, instr ≠ .perform effect after) :
    Code.Calm instr ∧ s.state task = .run ∧ s.pending task = 0 := by
  cases phase with
  | calm calm state pending => exact ⟨calm, state, pending⟩
  | @parking steps next parks =>
      rcases Code.parkInstr_cases steps next with ⟨after, is⟩ | ⟨after, is⟩ | ⟨effect, after, is⟩
      · exact absurd (parks.trans is) (suspend after)
      · exact absurd (parks.trans is) (wait after)
      · exact absurd (parks.trans is) (perform effect after)

/-- The outline of a call of `one_step` in the reactor. -/
def outline
    (surroundings : Surroundings User Own Local Key Outside) (task : TaskId) (base : Nat) :
    Outline (system surroundings task) where
  Running nexts code s :=
    Current base s task ∧ (∀ next ∈ nexts, ∀ result, (next result).ParksOnce) ∧
      Phase s task (code.instr surroundings.program)
  Resting nexts code s :=
    Current base s task ∧ ParkOnce nexts code ∧ s.state task = .run ∧ s.pending task = 0
  Suspended nexts code s :=
    Current base s task ∧ ParkOnce nexts code ∧
      ((s.state task = .run ∧ s.pending task = 0) ∨
        s.state task = .wait ∧ s.pending task ≤ 1)
  Finished _ s := Current base s task ∧ s.state task = .run ∧ s.pending task = 0
  perform := by
    rintro nexts code s effect next ⟨current, below, phase⟩ body
    replace body : code.instr surroundings.program = .perform effect next := body
    rw [body] at phase
    obtain ⟨currentNext, state, sources⟩ := current.perform surroundings effect
    refine ⟨currentNext, below, ?_⟩
    cases phase with
    | calm calm running none =>
        cases calm with
        | perform calm parksOnce =>
            apply phase_of_parksOnce _ (parksOnce _) (state.trans running)
            rw [calm, none] at sources
            exact Nat.le_zero.mp sources
    | parking parks parksOnce runs waits arms =>
        obtain ⟨arm, rest, rfl, isArm, notWait, effectIsArm, after⟩ :=
          Code.parkInstr_eq_perform parks.symm
        rw [List.count_cons_of_ne notWait] at waits
        rw [List.countP_cons_of_pos isArm] at arms
        rw [effectIsArm, if_pos rfl] at sources
        rw [after]
        refine .parking rfl parksOnce ?_ ?_ ?_
        · exact state ▸ runs
        · exact state ▸ waits
        · exact (Nat.add_le_add_right sources _).trans (by omega)
  wait := by
    rintro nexts code s next ⟨current, below, phase⟩ body
    replace body : code.instr surroundings.program = .wait next := body
    rw [body] at phase
    refine ⟨current.setState .wait, below, ?_⟩
    cases phase with
    | calm calm => cases calm
    | parking parks parksOnce runs waits arms =>
        obtain ⟨rest, rfl, rfl⟩ := Code.parkInstr_eq_wait parks.symm
        have waiting : (s.setState task .wait).state task = .wait := Function.update_self _ _ _
        refine .parking rfl parksOnce (Or.inr waiting) ?_ ?_
        · rw [List.count_cons_self] at waits
          change _ = if (s.setState task .wait).state task = .run then 1 else 0
          rw [waiting]
          split_ifs at waits
          · simpa using waits
        · exact arms
  suspend := by
    rintro nexts code s next ⟨current, below, phase⟩ body
    replace body : code.instr surroundings.program = .suspend next := body
    rw [body] at phase
    cases phase with
    | calm calm running none =>
        cases calm with
        | suspend parksOnce => exact ⟨current, ⟨parksOnce, below⟩, Or.inl ⟨running, none⟩⟩
    | parking parks parksOnce runs waits arms =>
        obtain ⟨rfl, rfl⟩ := Code.parkInstr_eq_suspend parks.symm
        refine ⟨current, ⟨parksOnce, below⟩, Or.inr ⟨runs.resolve_left fun running => ?_, arms⟩⟩
        simp [running] at waits
  await := by
    rintro nexts code s child next ⟨current, below, phase⟩ body
    replace body : code.instr surroundings.program = .await child next := body
    rw [body] at phase
    obtain ⟨calm, running, none⟩ := phase.calm_of (by simp) (by simp) (by simp)
    cases calm with
    | await parksOnce parksOnceNext =>
        refine ⟨current, ⟨parksOnce, ?_⟩, Or.inl ⟨running, none⟩⟩
        exact List.forall_mem_cons.mpr ⟨parksOnceNext, below⟩
  awake := by
    rintro nexts code s value next ⟨-, -, phase⟩ body
    replace body : code.instr surroundings.program = .ret value := body
    rw [body] at phase
    obtain ⟨-, running, -⟩ := phase.calm_of (by simp) (by simp) (by simp)
    change s.state task ≠ .wait
    rw [running]
    decide
  ret := by
    rintro nexts code s value next frames handle ⟨current, below, phase⟩ body -
    replace body : code.instr surroundings.program = .ret value := body
    rw [body] at phase
    obtain ⟨-, running, none⟩ := phase.calm_of (by simp) (by simp) (by simp)
    obtain ⟨parksOnce, below⟩ := List.forall_mem_cons.mp below
    exact ⟨current, below, phase_of_parksOnce _ (parksOnce value) running none⟩
  finish := by
    rintro code s value ⟨current, -, phase⟩ body
    replace body : code.instr surroundings.program = .ret value := body
    rw [body] at phase
    obtain ⟨-, running, none⟩ := phase.calm_of (by simp) (by simp) (by simp)
    exact ⟨current, running, none⟩
  start := by
    rintro nexts code s frames handle ⟨current, ⟨parksOnce, below⟩, state, none⟩ - -
    exact ⟨current, below, phase_of_parksOnce _ parksOnce state none⟩

/-! ## Wake-ups -/

omit [DecidableEq Key] in
theorem unmoved_wake
    (s : Reactor User Own Key Outside) {task other : TaskId} (different : other ≠ task) :
    Unmoved other s (s.wake task) where
  born := Iff.rfl
  active := Iff.rfl
  count := by simp [wake, schedule, setState, List.count_append, different.symm]
  state := Function.update_of_ne different _ _
  frames := rfl

omit [DecidableEq Key] in
/-- Waking a task that is due makes it run, and it was not in the queue. -/
theorem standing_wake
    {s : Reactor User Own Key Outside} {task : TaskId} {due : List TaskId}
    (standing : ∀ other, Standing s (task :: due) other) (other : TaskId) :
    Standing (s.wake task) due other := by
  by_cases same : other = task
  · subst same
    have some : 0 < (other :: due).count other := by simp
    cases standing other with
    | unborn _ _ _ _ none => omega
    | ready _ _ _ _ _ none => omega
    | parked born active suspended state count pending =>
        refine .ready born active suspended (Function.update_self _ _ _) ?_ ?_
        · simpa [wake, schedule, setState, List.count_append] using count
        · rw [List.count_cons_self] at pending
          change s.pending other + due.count other = 0
          omega
    | done _ _ _ _ none => omega
  · apply (standing other).move (unmoved_wake s same)
    rw [List.count_cons_of_ne (Ne.symm same)]
    exact le_rfl

omit [DecidableEq Key] in
theorem standing_wakes
    {s : Reactor User Own Key Outside} {due : List TaskId}
    (standing : ∀ other, Standing s due other) (other : TaskId) :
    Standing (due.foldl wake s) [] other := by
  induction due generalizing s with
  | nil => exact standing other
  | cons _ due inductionHypothesis => exact inductionHypothesis (standing_wake standing)

omit [DecidableEq Key] in
theorem standing_deliver
    {s : Reactor User Own Key Outside} {events : List (Registration Key × Bool)}
    (standing : ∀ other, Standing s (events.map fun event => event.1.task) other)
    (other : TaskId) :
    Standing (events.foldl deliver s) [] other := by
  induction events generalizing s with
  | nil => exact standing other
  | cons event events inductionHypothesis =>
      refine inductionHypothesis (standing_wake fun task => ?_)
      exact (standing task).move ⟨Iff.rfl, Iff.rfl, rfl, rfl, rfl⟩ le_rfl

omit [DecidableEq Key] in
/-- `get_delay` wakes the tasks that it takes from the timer pool. -/
theorem standing_poll
    {s : Reactor User Own Key Outside} (standing : ∀ other, Standing s [] other) (now : Int)
    (other : TaskId) :
    Standing (s.poll now) [] other := by
  have due : ∀ task, Standing { s with timers := (s.timers.getDelay now).pool }
      (s.timers.getDelay now).woken task := by
    refine fun task => (standing task).move ⟨Iff.rfl, Iff.rfl, rfl, rfl, rfl⟩ ?_
    have moved := s.timers.pending_getDelay now task
    simp only [pending, List.count_nil]
    omega
  exact (standing_wakes due other).move ⟨Iff.rfl, Iff.rfl, rfl, rfl, rfl⟩ le_rfl

/-- `epoll::run` wakes the tasks of the registrations that it reports. -/
theorem standing_complete
    {s : Reactor User Own Key Outside} (standing : ∀ other, Standing s [] other)
    {events : List (Registration Key × Bool)} (possible : s.epoll.CanReport (events.map Prod.fst))
    (other : TaskId) :
    Standing (s.complete events) [] other := by
  have due : ∀ task, Standing { s with epoll := s.epoll.disarm (events.map Prod.fst) }
      (events.map fun event => event.1.task) task := by
    refine fun task => (standing task).move ⟨Iff.rfl, Iff.rfl, rfl, rfl, rfl⟩ ?_
    have moved := Epoll.pending_disarm possible task
    rw [List.map_map] at moved
    simp only [pending, List.count_nil]
    change _ + (events.map (Registration.task ∘ Prod.fst)).count task ≤ _
    omega
  exact standing_deliver due other

/-! ## A round of `process_tasks` -/

omit [DecidableEq Key] in
/-- The task at the head of the queue runs, and occurs nowhere else in it. -/
theorem current_of_pop
    {s : Reactor User Own Key Outside} {task : TaskId} {rest : List TaskId}
    (standing : ∀ other, Standing s [] other) (first : s.tasks = task :: rest)
    (defined : s.undefined = false) (here : s.pc = .processing) :
    Current s.spawned s.popFront task ∧ (s.frames task).SuspendedAt ParkOnce ∧
      s.state task = .run ∧ s.pending task = 0 := by
  have present : s.tasks.count task ≠ 0 := by simp [first]
  cases standing task with
  | unborn _ _ _ absent => exact absurd absent present
  | ready born active suspended state count none =>
      refine ⟨?_, suspended, state, none⟩
      exact
        { others := fun other different => (standing other).move
            ⟨Iff.rfl, Iff.rfl, by simp [popFront, first, different.symm], rfl, rfl⟩ le_rfl
          born := born
          active := active
          count := by
            rw [first, List.count_cons_self] at count
            rw [popFront, first]
            exact Nat.succ.inj count
          defined := defined
          pc := here
          spawned := le_rfl }
  | parked _ _ _ _ absent => exact absurd absent present
  | done _ _ _ absent => exact absurd absent present

omit [DecidableEq Key] in
theorem sameFor_settle
    (s : Reactor User Own Key Outside) {task other : TaskId}
    (frames : Frames (Code User Own) (Result Own)) (result : ScheduleType)
    (different : other ≠ task) :
    SameFor other s ((s.setFrames task frames).settle task result) := by
  have unmoved : (s.setFrames task frames).frames other = s.frames other :=
    Function.update_of_ne different _ _
  cases result with
  | run =>
      refine ⟨⟨Iff.rfl, Iff.rfl, ?_, rfl, unmoved⟩, le_rfl⟩
      simp [settle, schedule, setFrames, List.count_append, different.symm]
  | done =>
      refine ⟨⟨Iff.rfl, ?_, rfl, rfl, unmoved⟩, le_rfl⟩
      simp [settle, setFrames, different]
  | wait => exact ⟨⟨Iff.rfl, Iff.rfl, rfl, rfl, unmoved⟩, le_rfl⟩

omit [DecidableEq Key] in
/-- What `process_tasks` does with the result of `one_step` gives the task its
standing. -/
theorem standing_settle
    {surroundings : Surroundings User Own Local Key Outside} {s : Reactor User Own Key Outside}
    [DecidableEq Key]
    {task : TaskId} {base : Nat} {result : ScheduleType}
    {frames : Frames (Code User Own) (Result Own)}
    (left : (outline surroundings task base).Result result frames s) :
    (∀ other, Standing ((s.setFrames task frames).settle task result) [] other) ∧
      s.undefined = false ∧ s.pc = .processing ∧ base ≤ s.spawned := by
  have own : (s.setFrames task frames).frames task = frames := Function.update_self _ _ _
  obtain ⟨rfl, value, finished, current, state, none⟩ |
    ⟨rfl, handle, frame, code, nexts, stacked, point, current, parkOnce, status⟩ := left
  · refine ⟨fun other => ?_, current.defined, current.pc, current.spawned⟩
    by_cases same : other = task
    · subst same
      refine .done current.born (Finset.notMem_erase _ _) ⟨value, ?_⟩ current.count none
      exact own.symm ▸ finished
    · exact (current.others other same).congr (sameFor_settle s frames .done same)
  · refine ⟨fun other => ?_, current.defined, current.pc, current.spawned⟩
    have suspended : frames.SuspendedAt ParkOnce :=
      ⟨handle, frame, code, nexts, stacked, point, parkOnce⟩
    change Standing ((s.setFrames task frames).settle task (s.state task)) [] other
    by_cases same : other = task
    · subst same
      rcases status with ⟨state, none⟩ | ⟨state, few⟩
      · rw [state]
        refine .ready current.born current.active (own.symm ▸ suspended) state ?_ none
        simpa [settle, schedule, setFrames, List.count_append] using current.count
      · rw [state]
        exact .parked current.born current.active (own.symm ▸ suspended) state current.count few
    · exact (current.others other same).congr (sameFor_settle s frames _ same)

theorem standing_process
    {surroundings : Surroundings User Own Local Key Outside}
    {s next : Reactor User Own Key Outside} {task : TaskId} {rest : List TaskId} {fuel : Nat}
    (standing : ∀ other, Standing s [] other) (first : s.tasks = task :: rest)
    (defined : s.undefined = false) (here : s.pc = .processing)
    (processed : s.popFront.process surroundings fuel task = some next) :
    (∀ other, Standing next [] other) ∧ next.undefined = false ∧ next.pc = .processing ∧
      s.spawned ≤ next.spawned := by
  obtain ⟨current, suspended, state, none⟩ := current_of_pop standing first defined here
  have awake : s.popFront.state task ≠ .wait := by
    change s.state task ≠ .wait
    rw [state]
    decide
  have rests : (s.popFront.frames task).SuspendedAt fun nexts code =>
      (outline surroundings task s.spawned).Resting nexts code s.popFront :=
    suspended.imp fun nexts code parkOnce => ⟨current, parkOnce, state, none⟩
  unfold process at processed
  rw [if_neg awake] at processed
  rcases (outline surroundings task s.spawned).oneStep_result rests awake fuel with
    stuck | ⟨result, frames, s', returned, left⟩
  · simp only [stuck] at processed
    cases processed
  · simp only [returned] at processed
    obtain rfl := Option.some.inj processed
    have settled := standing_settle left
    cases result with
    | _ => exact settled

/-! ## Every reachable state -/

/-- Between two rounds every task has its standing, and nothing undefined was
done. -/
structure Disciplined (s : Reactor User Own Key Outside) : Prop where
  standing : ∀ task, Standing s [] task
  defined : s.undefined = false

omit [DecidableEq Key] in
theorem disciplined_initial (outside : Outside) :
    Disciplined (initial outside : Reactor User Own Key Outside) where
  standing _ := .unborn (Nat.zero_le _) (Finset.notMem_empty _) rfl rfl rfl
  defined := rfl

omit [DecidableEq Key] in
/-- Where the worker is does not matter. -/
theorem Disciplined.goto
    {s : Reactor User Own Key Outside} (disciplined : Disciplined s) (pc : RunPc) :
    Disciplined (s.goto pc) where
  standing task := (disciplined.standing task).move ⟨Iff.rfl, Iff.rfl, rfl, rfl, rfl⟩ le_rfl
  defined := disciplined.defined

omit [DecidableEq Key] in
theorem foldl_wake_frame (due : List TaskId) (s : Reactor User Own Key Outside) :
    (due.foldl wake s).undefined = s.undefined ∧ (due.foldl wake s).spawned = s.spawned := by
  induction due generalizing s with
  | nil => exact ⟨rfl, rfl⟩
  | cons task _ inductionHypothesis => exact inductionHypothesis (s.wake task)

omit [DecidableEq Key] in
theorem foldl_deliver_frame
    (events : List (Registration Key × Bool)) (s : Reactor User Own Key Outside) :
    (events.foldl deliver s).undefined = s.undefined ∧
      (events.foldl deliver s).spawned = s.spawned := by
  induction events generalizing s with
  | nil => exact ⟨rfl, rfl⟩
  | cons event events inductionHypothesis => exact inductionHypothesis (s.deliver event)

omit [DecidableEq Key] in
theorem foldl_wake_frames (due : List TaskId) (s : Reactor User Own Key Outside) :
    (due.foldl wake s).frames = s.frames := by
  induction due generalizing s with
  | nil => rfl
  | cons first due inductionHypothesis => exact inductionHypothesis (s.wake first)

omit [DecidableEq Key] in
theorem foldl_deliver_frames
    (events : List (Registration Key × Bool)) (s : Reactor User Own Key Outside) :
    (events.foldl deliver s).frames = s.frames := by
  induction events generalizing s with
  | nil => rfl
  | cons event events inductionHypothesis => exact inductionHypothesis (s.deliver event)

theorem Disciplined.moves
    {surroundings : Surroundings User Own Local Key Outside}
    {s next : Reactor User Own Key Outside} {label : Label User Key Outside}
    (disciplined : Disciplined s) (moves : Moves surroundings s label next) :
    Disciplined next ∧ s.spawned ≤ next.spawned := by
  cases moves with
  | call here => exact ⟨disciplined.goto _, le_rfl⟩
  | exit here noTask => exact ⟨disciplined.goto _, le_rfl⟩
  | poll here =>
      obtain ⟨defined, spawned⟩ := foldl_wake_frame
        (s.timers.getDelay (surroundings.now s.outside)).woken
        { s with timers := (s.timers.getDelay (surroundings.now s.outside)).pool }
      refine ⟨⟨standing_poll disciplined.standing _, ?_⟩, spawned.ge⟩
      exact defined.trans disciplined.defined
  | @complete _ events here possible =>
      obtain ⟨defined, spawned⟩ := foldl_deliver_frame events
        { s with epoll := s.epoll.disarm (events.map Prod.fst) }
      have completed : Disciplined (s.complete events) :=
        ⟨standing_complete disciplined.standing possible, defined.trans disciplined.defined⟩
      exact ⟨completed.goto _, spawned.ge⟩
  | proceed here running => exact ⟨disciplined.goto _, le_rfl⟩
  | leave here stopped => exact ⟨disciplined.goto _, le_rfl⟩
  | idle here noTask fuel => exact ⟨disciplined.goto _, le_rfl⟩
  | round here first processed =>
      obtain ⟨standing, defined, -, spawned⟩ :=
        standing_process disciplined.standing first disciplined.defined here processed
      exact ⟨⟨standing, defined⟩, spawned⟩
  | deed deed =>
      refine ⟨⟨fun task => (disciplined.standing task).deed deed, ?_⟩, ?_⟩
      · cases deed with | _ => exact disciplined.defined
      · cases deed with
        | spawn start => exact Nat.le_succ _
        | _ => exact le_rfl
  | outside outside =>
      refine ⟨⟨fun task => ?_, disciplined.defined⟩, le_rfl⟩
      exact (disciplined.standing task).move ⟨Iff.rfl, Iff.rfl, rfl, rfl, rfl⟩ le_rfl

theorem disciplined_of_reachable
    {surroundings : Surroundings User Own Local Key Outside} {outside : Outside}
    {s : Reactor User Own Key Outside}
    (reachable : Machine.Reachable (step surroundings) (initial outside) s) :
    Disciplined s :=
  Machine.invariant_of_reachable
    (fun _ _ _ disciplined stepped => (disciplined.moves (moves_of_step stepped)).1)
    (disciplined_initial outside) reachable

/-- Between two iterations of `process_tasks` or of `run`, in every run of every
program: an active task that is `kRun` is in the queue exactly once, a task that
is `kWait` is not in the queue, and a task in the queue is active and its own
coroutine is not done. -/
theorem queue_disciplined
    {surroundings : Surroundings User Own Local Key Outside} {outside : Outside}
    {s : Reactor User Own Key Outside}
    (reachable : Machine.Reachable (step surroundings) (initial outside) s) :
    (∀ task ∈ s.active, s.state task = .run → s.tasks.count task = 1) ∧
      (∀ task, s.state task = .wait → task ∉ s.tasks) ∧
      (∀ task ∈ s.tasks, task ∈ s.active ∧ ¬s.Done task) ∧
      s.undefined = false := by
  obtain ⟨standing, defined⟩ := disciplined_of_reachable reachable
  refine ⟨fun task active running => ?_, fun task waiting present => ?_, fun task present => ?_,
    defined⟩
  · cases standing task with
    | unborn _ inactive => exact absurd active inactive
    | ready _ _ _ _ count => exact count
    | parked _ _ _ waiting => simp [running] at waiting
    | done _ inactive => exact absurd active inactive
  · have queued := List.count_pos_iff.mpr present
    cases standing task with
    | unborn _ _ _ absent => omega
    | ready _ _ _ running => simp [waiting] at running
    | parked _ _ _ _ absent => omega
    | done _ _ _ absent => omega
  · have queued := List.count_pos_iff.mpr present
    cases standing task with
    | unborn _ _ _ absent => omega
    | ready _ active suspended =>
        exact ⟨active, fun ⟨value, done⟩ => suspended.unfinished value done⟩
    | parked _ _ _ _ absent => omega
    | done _ _ _ absent => omega

/-- A program with one coroutine, that sleeps and returns. -/
def napping : Surroundings Bool Unit Empty Nat Int where
  program here := if here then .sleep 5 false else .ret ()
  syscall _ clock := (⟨-1, .other⟩, [], clock)
  perform effect := nomatch effect
  epollCtl _ _ := none
  now clock := clock

/-- The nap, up to where its task is parked. -/
def nap : List (Label Bool Nat Int) :=
  [.deed (.spawn (.user true)), .call, .test, .complete [], .proceed, .process 9, .process 9]

/-- A program whose tasks await a coroutine, which sleeps or does not, asks for a number
and returns it. -/
def delegating : Surroundings Nat Nat Unit Nat Int where
  program
    | 0 => .await (.user 2) fun | .own value => value + 4 | _ => 4
    | 1 => .await (.user 3) fun | .own value => value + 4 | _ => 4
    | 2 => .perform () (· + 4)
    | 3 => .sleep 5 2
    | value + 4 => .ret value
  syscall _ clock := (⟨-1, .other⟩, [], clock)
  perform _ clock := (clock.toNat, [], clock)
  epollCtl _ _ := none
  now clock := clock

/-- Two tasks, up to where the second is done and the first sleeps in the coroutine that
it awaits. -/
def delegated : List (Label Nat Nat Int) :=
  [.deed (.spawn (.user 1)), .deed (.spawn (.user 0)), .call, .test, .complete [], .proceed,
    .process 9, .process 9, .process 9, .process 9, .process 9]

/-- The first task wakes up and goes to its end. -/
def delegatedAwake : List (Label Nat Nat Int) :=
  [.outside 6, .test, .complete [], .proceed, .process 9]

theorem queue_disciplined_nap :
    ∃ s, Machine.run (step napping) (initial 0) nap = some s ∧
      (∀ task ∈ s.active, s.state task = .run → s.tasks.count task = 1) ∧
      (∀ task, s.state task = .wait → task ∉ s.tasks) ∧
      (∀ task ∈ s.tasks, task ∈ s.active ∧ ¬s.Done task) ∧
      s.undefined = false := by
  obtain ⟨s, ran⟩ : ∃ s, Machine.run (step napping) (initial 0) nap = some s := ⟨_, rfl⟩
  exact ⟨s, ran, queue_disciplined ⟨nap, ran⟩⟩

end Reactor

end Cppio
