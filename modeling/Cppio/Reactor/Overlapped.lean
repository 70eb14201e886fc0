import Cppio.Reactor.Operates
import Cppio.Reactor.Parked

/-!
# What epoll points to

`data.ptr` of a registration is the address of a `basic_overlapped` in a coroutine frame, and
`epoll::run` writes to it and wakes its task.  As long as the registration is armed, that
coroutine is suspended in the operation that has made it.
-/

namespace Cppio
namespace Reactor

variable {User Own Local Key Outside : Type} [DecidableEq Key]
variable {surroundings : Surroundings User Own Local Key Outside}
variable {s next : Reactor User Own Key Outside} {task : TaskId}
variable {registration : Registration Key}

theorem armed_deed
    {deed : Deed User Key} (armed : registration ∈ (s.deed deed).epoll.armed) :
    registration ∈ s.epoll.armed := by
  cases deed with
  | close key => exact List.mem_of_mem_filter armed
  | _ => exact armed

theorem armed_deeds
    {deeds : List (Deed User Key)} (armed : registration ∈ (deeds.foldl deed s).epoll.armed) :
    registration ∈ s.epoll.armed := by
  induction deeds generalizing s with
  | nil => exact armed
  | cons deed deeds inductionHypothesis => exact armed_deed (inductionHypothesis armed)

/-- A registration was there before, or the effect has made it. -/
theorem armed_perform
    {effect : Effect User Local}
    (armed : registration ∈ (perform surroundings task effect s).2.epoll.armed) :
    registration ∈ s.epoll.armed ∨
      registration.task = task ∧ ∃ sock, effect = .register registration.interest sock := by
  cases effect with
  | syscall call =>
      exact Or.inl (armed_deeds (s := { s with
        outside := (surroundings.syscall call s.outside).2.2 }) armed)
  | register interest sock =>
      simp only [perform] at armed
      cases key : surroundings.epollCtl s.outside sock with
      | none =>
          rw [key] at armed
          exact Or.inl armed
      | some key' =>
          rw [key] at armed
          rcases List.mem_cons.mp armed with rfl | before
          · exact Or.inr ⟨rfl, sock, rfl⟩
          · exact Or.inl (List.mem_of_mem_filter before)
  | perform effect =>
      exact Or.inl (armed_deeds (s := { s with
        outside := (surroundings.perform effect s.outside).2.2 }) armed)
  | _ => exact Or.inl armed

/-- The operation registers for this, and its coroutine goes on so. -/
def Registers (interest : Interest) (code : Code User Own) : Prop :=
  ∃ (operation : Operation SocketT) (sock : SocketT),
    .register interest sock ∈ operation.parkSteps ∧ Code.Resumes operation code

/-- Which registrations the task may have while its coroutine is on its way to a
suspension. -/
inductive Inside
    (s : Reactor User Own Key Outside) (task : TaskId)
    (instr : Instr (Code User Own) (Effect User Local) (Result Own) (Effect.Reply Own)) : Prop
  | operating (operating : Code.Operating instr)
      (none : ∀ registration ∈ s.epoll.armed, registration.task ≠ task)
  | parking {operation : Operation SocketT} {taken steps : List (ParkStep SocketT)}
      {next : Code User Own}
      (parks : instr = Code.parkInstr next steps) (resumes : Code.Resumes operation next)
      (operates : next.Operates) (split : operation.parkSteps = taken ++ steps)
      (registered : ∀ registration ∈ s.epoll.armed, registration.task = task →
        ∃ sock, .register registration.interest sock ∈ taken)

omit [DecidableEq Key] in
theorem inside_of_operates
    {code : Code User Own} (operates : code.Operates)
    (none : ∀ registration ∈ s.epoll.armed, registration.task ≠ task) :
    Inside s task (code.instr surroundings.program) := by
  rcases Code.operating_or_park surroundings.program operates with
    operating | ⟨operation, next, parks, resumes, operatesNext⟩
  · exact .operating operating none
  · exact .parking parks resumes operatesNext (List.nil_append _).symm
      fun registration armed own => absurd own (none registration armed)

omit [DecidableEq Key] in
/-- A coroutine that awaits or returns has no registration. -/
theorem Inside.operating_of
    {instr : Instr (Code User Own) (Effect User Local) (Result Own) (Effect.Reply Own)}
    (inside : Inside s task instr) (suspend : ∀ after, instr ≠ .suspend after)
    (wait : ∀ after, instr ≠ .wait after)
    (perform : ∀ effect after, instr ≠ .perform effect after) :
    Code.Operating instr ∧ ∀ registration ∈ s.epoll.armed, registration.task ≠ task := by
  cases inside with
  | operating operating none => exact ⟨operating, none⟩
  | @parking operation taken steps next parks =>
      rcases Code.parkInstr_cases steps next with ⟨after, is⟩ | ⟨after, is⟩ | ⟨effect, after, is⟩
      · exact absurd (parks.trans is) (suspend after)
      · exact absurd (parks.trans is) (wait after)
      · exact absurd (parks.trans is) (perform effect after)

/-- The code, and what awaits it, park by operations. -/
def OperateOnly (nexts : List (Result Own → Code User Own)) (code : Code User Own) : Prop :=
  ParkOnce nexts code ∧ code.Operates ∧ ∀ next ∈ nexts, ∀ result, (next result).Operates

/-- The outline of a call of `one_step`, with the registrations of the task. -/
def registering
    (surroundings : Surroundings User Own Local Key Outside) (task : TaskId) (base : Nat) :
    Outline (system surroundings task) where
  Running nexts code s :=
    (outline surroundings task base).Running nexts code s ∧
      (∀ next ∈ nexts, ∀ result, (next result).Operates) ∧
      Inside s task (code.instr surroundings.program)
  Resting nexts code s :=
    (outline surroundings task base).Resting nexts code s ∧ OperateOnly nexts code ∧
      ∀ registration ∈ s.epoll.armed, registration.task ≠ task
  Suspended nexts code s :=
    OperateOnly nexts code ∧ ∀ registration ∈ s.epoll.armed, registration.task = task →
      Registers registration.interest code
  Finished _ s := ∀ registration ∈ s.epoll.armed, registration.task ≠ task
  perform := by
    rintro nexts code s effect next ⟨running, below, inside⟩ body
    refine ⟨(outline surroundings task base).perform running body, below, ?_⟩
    replace body : code.instr surroundings.program = .perform effect next := body
    rw [body] at inside
    cases inside with
    | operating operating none =>
        cases operating with
        | perform calm operates =>
            refine inside_of_operates (operates _) fun registration armed => ?_
            rcases armed_perform armed with before | ⟨-, sock, rfl⟩
            · exact none registration before
            · cases calm
    | @parking operation taken steps after parks resumes operates split registered =>
        obtain ⟨arm, rest, rfl, -, -, -, goesOn⟩ := Code.parkInstr_eq_perform parks.symm
        rw [goesOn]
        have taken' : operation.parkSteps = (taken ++ [arm]) ++ rest := by
          rw [split, List.append_assoc, List.singleton_append]
        refine .parking rfl resumes operates taken' fun registration armed own => ?_
        rcases armed_perform armed with before | ⟨-, sock, rfl⟩
        · obtain ⟨sock, present⟩ := registered registration before own
          exact ⟨sock, List.mem_append_left _ present⟩
        · cases arm with
          | register interest sock' =>
              cases parks
              exact ⟨sock, List.mem_append_right _ (List.mem_singleton.mpr rfl)⟩
          | _ => cases parks
  wait := by
    rintro nexts code s next ⟨running, below, inside⟩ body
    refine ⟨(outline surroundings task base).wait running body, below, ?_⟩
    replace body : code.instr surroundings.program = .wait next := body
    rw [body] at inside
    cases inside with
    | operating operating => cases operating
    | @parking operation taken steps after parks resumes operates split registered =>
        obtain ⟨rest, rfl, rfl⟩ := Code.parkInstr_eq_wait parks.symm
        have taken' : operation.parkSteps = (taken ++ [.wait]) ++ rest := by
          rw [split, List.append_assoc, List.singleton_append]
        refine .parking rfl resumes operates taken' fun registration armed own => ?_
        obtain ⟨sock, present⟩ := registered registration armed own
        exact ⟨sock, List.mem_append_left _ present⟩
  suspend := by
    rintro nexts code s next ⟨running, below, inside⟩ body
    obtain ⟨-, parkOnce, -⟩ := (outline surroundings task base).suspend running body
    replace body : code.instr surroundings.program = .suspend next := body
    rw [body] at inside
    cases inside with
    | operating operating none =>
        cases operating with
        | suspend operates =>
            exact ⟨⟨parkOnce, operates, below⟩, fun registration armed own =>
              absurd own (none registration armed)⟩
    | @parking operation taken steps after parks resumes operates split registered =>
        obtain ⟨rfl, rfl⟩ := Code.parkInstr_eq_suspend parks.symm
        refine ⟨⟨parkOnce, operates, below⟩, fun registration armed own => ?_⟩
        obtain ⟨sock, present⟩ := registered registration armed own
        rw [List.append_nil] at split
        exact ⟨operation, sock, split ▸ present, resumes⟩
  await := by
    rintro nexts code s child next ⟨running, below, inside⟩ body
    obtain ⟨-, parkOnce, -⟩ := (outline surroundings task base).await running body
    replace body : code.instr surroundings.program = .await child next := body
    rw [body] at inside
    obtain ⟨operating, none⟩ := inside.operating_of (by simp) (by simp) (by simp)
    cases operating with
    | await operates operatesNext =>
        exact ⟨⟨parkOnce, operates, List.forall_mem_cons.mpr ⟨operatesNext, below⟩⟩,
          fun registration armed own => absurd own (none registration armed)⟩
  awake := fun ⟨running, _⟩ body => (outline surroundings task base).awake running body
  ret := by
    rintro nexts code s value next frames handle ⟨running, below, inside⟩ body innermost
    have runs := (outline surroundings task base).ret running body innermost
    replace body : code.instr surroundings.program = .ret value := body
    rw [body] at inside
    obtain ⟨-, none⟩ := inside.operating_of (by simp) (by simp) (by simp)
    obtain ⟨operates, below⟩ := List.forall_mem_cons.mp below
    exact ⟨runs, below, inside_of_operates (operates value) none⟩
  finish := by
    rintro code s value ⟨-, -, inside⟩ body
    replace body : code.instr surroundings.program = .ret value := body
    rw [body] at inside
    exact (inside.operating_of (by simp) (by simp) (by simp)).2
  start := by
    rintro nexts code s frames handle ⟨resting, ⟨-, operates, below⟩, none⟩ awake innermost
    exact ⟨(outline surroundings task base).start resting awake innermost, below,
      inside_of_operates operates none⟩

/-! ## Every reachable state -/

/-- The coroutine of the task is suspended, and where the task is registered, it is in the
operation that has registered it. -/
def LentTo (s : Reactor User Own Key Outside) (task : TaskId) : Prop :=
  (s.frames task).SuspendedAt fun nexts code => OperateOnly nexts code ∧
    ∀ registration ∈ s.epoll.armed, registration.task = task →
      Registers registration.interest code

/-- All active tasks of a kind are so. -/
structure Lent (kind : TaskId → Prop) (s : Reactor User Own Key Outside) : Prop where
  born : ∀ registration ∈ s.epoll.armed, registration.task < s.spawned
  active : ∀ task ∈ s.active, kind task → LentTo s task

variable {kind : TaskId → Prop}

omit [DecidableEq Key] in
theorem LentTo.congr
    (lent : LentTo s task) (frames : next.frames task = s.frames task)
    (armed : ∀ registration ∈ next.epoll.armed, registration.task = task →
      registration ∈ s.epoll.armed) : LentTo next task := by
  unfold LentTo
  rw [frames]
  exact lent.imp fun nexts code ⟨operates, registered⟩ =>
    ⟨operates, fun registration present own =>
      registered registration (armed registration present own) own⟩

omit [DecidableEq Key] in
theorem Lent.congr
    (lent : Lent kind s) (spawned : next.spawned = s.spawned) (active : next.active ⊆ s.active)
    (frames : next.frames = s.frames) (armed : next.epoll.armed ⊆ s.epoll.armed) :
    Lent kind next where
  born registration present := spawned ▸ lent.born registration (armed present)
  active task present here := (lent.active task (active present) here).congr
    (congrFun frames task) fun _ present _ => armed present

omit [DecidableEq Key] in
theorem Lent.spawn (lent : Lent kind s) (start : Start User) : Lent kind (s.spawn start) where
  born registration armed := Nat.lt_succ_of_lt (lent.born registration armed)
  active task present here := by
    by_cases new : task = s.spawned
    · subst new
      have own : (s.spawn start).frames s.spawned = Frames.ofCode start.code :=
        Function.update_self ..
      unfold LentTo
      rw [own]
      refine Frames.suspendedAt_ofCode
        ⟨⟨⟨Code.parksOnce_code start, by simp⟩, Code.operates_code start, by simp⟩, ?_⟩
      intro registration armed own
      exact absurd own (lent.born registration armed).ne
    · have before : task ∈ s.active := Finset.mem_of_mem_insert_of_ne present new
      exact (lent.active task before here).congr (Function.update_of_ne new _ _) fun _ armed _ =>
        armed

theorem Lent.deed (lent : Lent kind s) (deed : Deed User Key) : Lent kind (s.deed deed) := by
  cases deed with
  | spawn start => exact lent.spawn start
  | close key => exact lent.congr rfl (fun _ h => h) rfl (List.filter_subset_self _)
  | stop => exact lent.congr rfl (fun _ h => h) rfl fun _ h => h

theorem Lent.deeds (lent : Lent kind s) (deeds : List (Deed User Key)) :
    Lent kind (deeds.foldl Reactor.deed s) := by
  induction deeds generalizing s with
  | nil => exact lent
  | cons deed deeds inductionHypothesis => exact inductionHypothesis (lent.deed deed)

/-- What the coroutines of a task do leaves the registrations of the others alone. -/
theorem preserves_lent
    (surroundings : Surroundings User Own Local Key Outside) (task : TaskId) :
    (system surroundings task).Preserves fun s =>
      task < s.spawned ∧ Lent (fun other => other ≠ task) s where
  perform := by
    rintro effect s ⟨born, lent⟩
    have unborn : ∀ (s : Reactor User Own Key Outside) (deeds : List (Deed User Key)),
        task < s.spawned → task < (deeds.foldl deed s).spawned := by
      intro s deeds born
      induction deeds generalizing s with
      | nil => exact born
      | cons deed deeds inductionHypothesis =>
          refine inductionHypothesis (s.deed deed) ?_
          cases deed with
          | spawn start => exact Nat.lt_succ_of_lt born
          | _ => exact born
    cases effect with
    | syscall call =>
        exact ⟨unborn { s with outside := (surroundings.syscall call s.outside).2.2 } _ born,
          Lent.deeds (s := { s with outside := (surroundings.syscall call s.outside).2.2 })
            (lent.congr rfl (fun _ h => h) rfl fun _ h => h) _⟩
    | register interest sock =>
        have armed : ∀ registration ∈
            (perform surroundings task (.register interest sock) s).2.epoll.armed,
            registration ∈ s.epoll.armed ∨ registration.task = task := fun _ armed =>
          (armed_perform armed).imp id And.left
        have rest : (perform surroundings task (.register interest sock) s).2 =
            { s with
              epoll := (perform surroundings task (.register interest sock) s).2.epoll } := by
          simp only [perform]
          cases surroundings.epollCtl s.outside sock with
          | _ => rfl
        change task < (perform surroundings task (.register interest sock) s).2.spawned ∧
          Lent _ (perform surroundings task (.register interest sock) s).2
        rw [rest]
        refine ⟨born, ⟨fun registration present => ?_, fun other present different => ?_⟩⟩
        · rcases armed registration present with before | own
          · exact lent.born registration before
          · exact own ▸ born
        · refine (lent.active other present different).congr rfl fun registration present own => ?_
          exact (armed registration present).resolve_right fun same =>
            different (own.symm.trans same)
    | perform effect =>
        exact ⟨unborn { s with outside := (surroundings.perform effect s.outside).2.2 } _ born,
          Lent.deeds (s := { s with outside := (surroundings.perform effect s.outside).2.2 })
            (lent.congr rfl (fun _ h => h) rfl fun _ h => h) _⟩
    | spawn start => exact ⟨Nat.lt_succ_of_lt born, lent.spawn start⟩
    | _ => exact ⟨born, lent.congr rfl (fun _ h => h) rfl fun _ h => h⟩
  wait s held := ⟨held.1, held.2.congr rfl (fun _ h => h) rfl fun _ h => h⟩
  observe _ _ held := held

/-- After a call of `one_step` its task too is in the operation that has registered it. -/
theorem lent_settle
    {base : Nat} {result : ScheduleType} {frames : Frames (Code User Own) (Result Own)}
    (lent : Lent (fun other => other ≠ task) s)
    (left : (registering surroundings task base).Result result frames s) :
    Lent (fun _ => True) ((s.setFrames task frames).settle task result) := by
  have own : (s.setFrames task frames).frames task = frames := Function.update_self ..
  have elsewhere : ∀ other, other ≠ task →
      (s.setFrames task frames).frames other = s.frames other :=
    fun other different => Function.update_of_ne different _ _
  obtain ⟨rfl, -⟩ | ⟨rfl, suspended⟩ := left
  · refine ⟨lent.born, fun other present _ => ?_⟩
    obtain ⟨different, active⟩ := Finset.mem_erase.mp present
    exact (lent.active other active different).congr (elsewhere other different)
      fun _ armed _ => armed
  · change Lent _ ((s.setFrames task frames).settle task (s.state task))
    have here : LentTo (s.setFrames task frames) task := by
      unfold LentTo
      rw [own]
      exact suspended
    have all : Lent (fun _ => True) (s.setFrames task frames) := by
      refine ⟨lent.born, fun other present _ => ?_⟩
      by_cases same : other = task
      · exact same ▸ here
      · exact (lent.active other present same).congr (elsewhere other same) fun _ armed _ => armed
    cases s.state task with
    | done => exact all.congr rfl (Finset.erase_subset _ _) rfl fun _ h => h
    | _ => exact all.congr rfl (fun _ h => h) rfl fun _ h => h

theorem Lent.process
    {rest : List TaskId} {fuel : Nat}
    (lent : Lent (fun _ => True) s) (disciplined : Disciplined s) (first : s.tasks = task :: rest)
    (here : s.pc = .processing)
    (processed : s.popFront.process surroundings fuel task = some next) :
    Lent (fun _ => True) next := by
  obtain ⟨current, suspended, state, none⟩ :=
    current_of_pop disciplined.standing first disciplined.defined here
  have awake : s.popFront.state task ≠ .wait := by
    change s.state task ≠ .wait
    rw [state]
    decide
  have unregistered : ∀ registration ∈ s.epoll.armed, registration.task ≠ task := by
    intro registration armed own
    have some : 0 < s.epoll.pending task :=
      List.countP_pos_iff.mpr ⟨registration, armed, decide_eq_true own⟩
    unfold pending at none
    omega
  have rests : (s.popFront.frames task).SuspendedAt fun nexts code =>
      (registering surroundings task s.spawned).Resting nexts code s.popFront :=
    (lent.active task current.active trivial).imp fun nexts code ⟨operateOnly, _⟩ =>
      ⟨⟨current, operateOnly.1, state, none⟩, operateOnly, unregistered⟩
  have others : Lent (fun other => other ≠ task) s.popFront :=
    ⟨lent.born, fun other present _ => lent.active other present trivial⟩
  unfold Reactor.process at processed
  rw [if_neg awake] at processed
  rcases (registering surroundings task s.spawned).oneStep_result rests awake fuel with
    stuck | ⟨result, frames, s', returned, left⟩
  · simp only [stuck] at processed
    cases processed
  · simp only [returned] at processed
    obtain rfl := Option.some.inj processed
    obtain ⟨⟨-, held⟩, -⟩ := (preserves_lent surroundings task).oneStep ⟨current.born, others⟩
      returned
    exact lent_settle held left

theorem Lent.moves
    {label : Label User Key Outside} (lent : Lent (fun _ => True) s) (disciplined : Disciplined s)
    (moves : Moves surroundings s label next) : Lent (fun _ => True) next := by
  cases moves with
  | poll here =>
      have same : ∀ (due : List TaskId) (s : Reactor User Own Key Outside),
          (due.foldl wake s).epoll = s.epoll ∧ (due.foldl wake s).active = s.active := by
        intro due
        induction due with
        | nil => exact fun _ => ⟨rfl, rfl⟩
        | cons first due inductionHypothesis => exact fun s => inductionHypothesis (s.wake first)
      have woken := same (s.timers.getDelay (surroundings.now s.outside)).woken
        { s with timers := (s.timers.getDelay (surroundings.now s.outside)).pool }
      refine lent.congr ?_ woken.2.subset (foldl_wake_frames _ _) ?_
      · exact (foldl_wake_frame _ _).2
      · exact fun registration armed => woken.1 ▸ armed
  | @complete _ events here possible =>
      have same : ∀ (events : List (Registration Key × Bool)) (s : Reactor User Own Key Outside),
          (events.foldl deliver s).epoll = s.epoll ∧
            (events.foldl deliver s).active = s.active := by
        intro events
        induction events with
        | nil => exact fun _ => ⟨rfl, rfl⟩
        | cons event events inductionHypothesis =>
            exact fun s => inductionHypothesis (s.deliver event)
      have delivered := same events { s with epoll := s.epoll.disarm (events.map Prod.fst) }
      refine lent.congr ?_ delivered.2.subset (foldl_deliver_frames _ _) ?_
      · exact (foldl_deliver_frame _ _).2
      · intro registration armed
        have moved : (s.complete events).epoll = s.epoll.disarm (events.map Prod.fst) :=
          delivered.1
        have left : registration ∈ (s.epoll.disarm (events.map Prod.fst)).armed := by
          rw [← moved]
          exact armed
        exact List.mem_of_mem_filter left
  | round here first processed => exact lent.process disciplined first here processed
  | deed deed => exact lent.deed deed
  | _ => exact lent.congr rfl (fun _ h => h) rfl fun _ h => h

/-- `epoll::run` never writes to a `basic_overlapped` that is gone: in every reachable state,
the task of every armed registration is active and parked, and of its coroutines the innermost
one, whose frame is there, is suspended in an operation that registers for what the registration
is for, with its `basic_overlapped` in scope. -/
theorem overlapped_in_scope
    {outside : Outside}
    (reachable : Machine.Reachable (step surroundings) (initial outside) s)
    (armed : registration ∈ s.epoll.armed) :
    registration.task ∈ s.active ∧ s.state registration.task = .wait ∧
      ∃ handle frame code, (s.frames registration.task).Innermost handle ∧
        (s.frames registration.task).frame handle = some frame ∧ frame.point = .code code ∧
        Registers registration.interest code := by
  have preserved : ∀ (s : Reactor User Own Key Outside) label next,
      Disciplined s ∧ Lent (fun _ => True) s → step surroundings s label = some next →
        Disciplined next ∧ Lent (fun _ => True) next :=
    fun s label next held stepped =>
      ⟨(held.1.moves (moves_of_step stepped)).1, held.2.moves held.1 (moves_of_step stepped)⟩
  have initially : Lent (fun _ => True) (initial outside : Reactor User Own Key Outside) :=
    ⟨nofun, nofun⟩
  obtain ⟨disciplined, lent⟩ := Machine.invariant_of_reachable preserved
    ⟨disciplined_initial outside, initially⟩ reachable
  have registered : 0 < s.epoll.pending registration.task :=
    List.countP_pos_iff.mpr ⟨registration, armed, decide_eq_true rfl⟩
  have pends : 0 < s.pending registration.task :=
    Nat.lt_of_lt_of_le registered (Nat.le_add_right _ _)
  have waits : registration.task ∈ s.active ∧ s.state registration.task = .wait := by
    cases disciplined.standing registration.task with
    | unborn _ _ _ _ none => omega
    | ready _ _ _ _ _ none => omega
    | parked _ active _ state => exact ⟨active, state⟩
    | done _ _ _ _ none => omega
  obtain ⟨handle, frame, code, nexts, stacked, point, -, registers⟩ :=
    lent.active registration.task waits.1 trivial
  exact ⟨waits.1, waits.2, handle, frame, code, stacked.isInnermost (by simp [point]),
    stacked.found, point, registers registration armed rfl⟩

/-- A socket that has nothing to read. -/
def silent : Surroundings Empty Unit Empty Nat Unit where
  program here := nomatch here
  syscall _ _ := (⟨-1, .wouldBlock⟩, [], ())
  perform effect := nomatch effect
  epollCtl _ sock := some sock.toNat
  now _ := 0

/-- A task reads from it, and is parked. -/
def listen : List (Label Empty Nat Unit) :=
  [.deed (.spawn (.tcpRead ⟨3, 4⟩ 100 2)), .call, .test, .complete [], .proceed, .process 9]

theorem overlapped_in_scope_listen :
    ∃ s, Machine.run (step silent) (initial ()) listen = some s ∧
      (⟨3, .read, 0⟩ : Registration Nat) ∈ s.epoll.armed ∧ 0 ∈ s.active ∧ s.state 0 = .wait ∧
      ∃ handle frame code, (s.frames 0).Innermost handle ∧
        (s.frames 0).frame handle = some frame ∧ frame.point = .code code ∧
        Registers .read code := by
  obtain ⟨s, ran, armed⟩ : ∃ s, Machine.run (step silent) (initial ()) listen = some s ∧
    (⟨3, .read, 0⟩ : Registration Nat) ∈ s.epoll.armed := ⟨_, rfl, by decide +kernel⟩
  exact ⟨s, ran, armed, overlapped_in_scope ⟨listen, ran⟩ armed⟩

end Reactor
end Cppio
