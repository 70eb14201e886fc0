import Cppio.Reactor.Discipline
import Cppio.Reactor.Operates
import Cppio.Workers.Machine

/-!
# The reactor seen from outside

What the machine of several workers shows of a reactor with one worker, and what the parts
of a round of `run` are there, up to where the coroutines of a task are resumed.
-/

namespace Cppio
namespace Workers

variable {User Own Local Key Outside : Type}

/-- Where the worker is, between two steps of the reactor. -/
def pcOf : RunPc → Pc Key
  | .head => .head
  | .calling waitTime => .calling waitTime
  | .completed => .completed
  | .processing => .processing
  | .returned => .exited

/-- The data of a reactor, with its worker at `pc`.  Its tasks' coroutines are seen from
outside. -/
def image
    (s : Reactor User Own Key Outside) (lock : Bool) (pc : Pc Key)
    (coroutine : TaskId → Coroutine) (delivered : TaskId → Bool) : State Unit Key where
  spawned := s.spawned
  state := s.state
  coroutine := coroutine
  delivered := delivered
  tasks := s.tasks
  active := s.active
  timers := s.timers
  timersLock := lock
  epoll := s.epoll
  running := s.running
  undefined := false
  pc _ := pc

/-- Where the coroutines of a task are. -/
inductive Stage
    (s : Reactor User Own Key Outside) (coroutine : TaskId → Coroutine) (task : TaskId) : Prop
  | unborn (unborn : s.spawned ≤ task) (coroutine : coroutine task = .suspended)
  | suspended (born : task < s.spawned)
      (suspended : (s.frames task).SuspendedAt fun nexts code =>
        code.Operates ∧ ∀ next ∈ nexts, ∀ result, (next result).Operates)
      (coroutine : coroutine task = .suspended)
  | finished (born : task < s.spawned) (done : s.Done task) (coroutine : coroutine task = .finished)

/-- The machine of several workers is where the reactor is. -/
def Represents (s : Reactor User Own Key Outside) (w : State Unit Key) : Prop :=
  ∃ coroutine delivered, w = image s false (pcOf s.pc) coroutine delivered ∧
    ∀ task, Stage s coroutine task

theorem Stage.congr
    {s s' : Reactor User Own Key Outside} {coroutine coroutine' : TaskId → Coroutine}
    {task : TaskId} (stage : Stage s coroutine task) (spawned : s'.spawned = s.spawned)
    (frames : s'.frames task = s.frames task) (same : coroutine' task = coroutine task) :
    Stage s' coroutine' task := by
  cases stage with
  | unborn unborn suspended => exact .unborn (spawned ▸ unborn) (same.trans suspended)
  | suspended born suspendedAt suspended =>
      exact .suspended (spawned ▸ born) (frames ▸ suspendedAt) (same.trans suspended)
  | finished born done finished =>
      obtain ⟨value, finishedWith⟩ := done
      exact .finished (spawned ▸ born) ⟨value, frames ▸ finishedWith⟩ (same.trans finished)

theorem Stage.spawn
    {s : Reactor User Own Key Outside} {coroutine : TaskId → Coroutine} {task : TaskId}
    (stage : Stage s coroutine task) (start : Start User) :
    Stage (s.spawn start) coroutine task := by
  by_cases same : task = s.spawned
  · subst same
    cases stage with
    | unborn _ suspended =>
        refine .suspended (Nat.lt_succ_self _) ?_ suspended
        have own : (s.spawn start).frames s.spawned = Frames.ofCode start.code :=
          Function.update_self ..
        rw [own]
        exact Frames.suspendedAt_ofCode
          ⟨Code.operates_code start, List.forall_mem_nil _⟩
    | suspended born => exact absurd born (Nat.lt_irrefl _)
    | finished born => exact absurd born (Nat.lt_irrefl _)
  · have frames : (s.spawn start).frames task = s.frames task :=
      Function.update_of_ne same _ _
    cases stage with
    | unborn unborn suspended =>
        exact .unborn (Nat.succ_le_of_lt (Nat.lt_of_le_of_ne unborn (Ne.symm same))) suspended
    | suspended born suspendedAt suspended =>
        exact .suspended (Nat.lt_succ_of_lt born) (frames ▸ suspendedAt) suspended
    | finished born done finished =>
        obtain ⟨value, finishedWith⟩ := done
        exact .finished (Nat.lt_succ_of_lt born) ⟨value, frames ▸ finishedWith⟩ finished

theorem Stage.deed
    [DecidableEq Key]
    {s : Reactor User Own Key Outside} {coroutine : TaskId → Coroutine} {task : TaskId}
    (stage : Stage s coroutine task) (deed : Deed User Key) :
    Stage (s.deed deed) coroutine task := by
  cases deed with
  | spawn start => exact stage.spawn start
  | _ => exact stage.congr rfl rfl rfl

section

variable [DecidableEq Key]
variable {s : Reactor User Own Key Outside} {lock : Bool} {pc : Pc Key}
variable {coroutine : TaskId → Coroutine} {delivered : TaskId → Bool}

omit [DecidableEq Key] in
@[simp] theorem image_goto (pc' : Pc Key) :
    (image s lock pc coroutine delivered).goto () pc' = image s lock pc' coroutine delivered := by
  have same : Function.update (fun _ : Unit => pc) () pc' = fun _ => pc' := by
    funext worker
    exact Function.update_self ..
  rw [State.goto]
  exact congrArg (fun pc => { image s lock pc' coroutine delivered with pc := pc }) same

/-- A step of the worker. -/
theorem reachable_of_work
    {s' : Reactor User Own Key Outside} {lock' : Bool} {pc' : Pc Key}
    {coroutine' : TaskId → Coroutine} {delivered' : TaskId → Bool} (choice : Choice Key)
    (worked : (image s lock pc coroutine delivered).work () choice =
      some ((image s' lock' pc coroutine' delivered').goto () pc')) :
    Machine.Reachable State.step (image s lock pc coroutine delivered)
      (image s' lock' pc' coroutine' delivered') := by
  rw [image_goto] at worked
  have stepped : (image s lock pc coroutine delivered).step (.work () choice) =
    some (image s' lock' pc' coroutine' delivered') := worked
  exact Machine.reachable_of_step stepped

/-- A deed of another thread is one of the other threads' steps. -/
theorem reachable_deed (deed : Deed User Key) :
    Machine.Reachable State.step (image s lock pc coroutine delivered)
      (image (s.deed deed) lock pc coroutine delivered) := by
  cases deed with
  | spawn start => exact ⟨[.spawn], rfl⟩
  | close key => exact ⟨[.close key], rfl⟩
  | stop => exact ⟨[.stop], rfl⟩

/-- A call of `wake()`. -/
theorem reachable_wake (task : TaskId) (rest : List TaskId) (source : Source) :
    Machine.Reachable State.step
      (image s lock (.waking none (task :: rest) source) coroutine delivered)
      (image (s.wake task) lock (.waking none rest source) coroutine delivered) := by
  have store : Machine.Reachable State.step
      (image s lock (.waking none (task :: rest) source) coroutine delivered)
      (image (s.setState task .run) lock (.waking (some task) rest source) coroutine delivered) :=
    reachable_of_work .go rfl
  have push : Machine.Reachable State.step
      (image (s.setState task .run) lock (.waking (some task) rest source) coroutine delivered)
      (image (s.wake task) lock (.waking none rest source) coroutine delivered) :=
    reachable_of_work .go rfl
  exact store.trans push

theorem reachable_wakes (due : List TaskId) (source : Source) :
    Machine.Reachable State.step
      (image s lock (.waking none due source) coroutine delivered)
      (image (due.foldl Reactor.wake s) lock (.waking none [] source) coroutine delivered) := by
  induction due generalizing s with
  | nil => exact .refl _ _
  | cons task due inductionHypothesis =>
      exact (reachable_wake task due source).trans inductionHypothesis

theorem reachable_deliveries (events : List (Registration Key × Bool)) (source : Source) :
    Machine.Reachable State.step
      (image s lock (.waking none (events.map fun event => event.1.task) source) coroutine
        delivered)
      (image (events.foldl Reactor.deliver s) lock (.waking none [] source) coroutine
        delivered) := by
  induction events generalizing s with
  | nil => exact .refl _ _
  | cons event events inductionHypothesis =>
      have rest := @inductionHypothesis (s.deliver event)
      exact (reachable_wake event.1.task _ source).trans rest

/-- `get_delay`, and the test of its result. -/
theorem reachable_poll (active : s.active ≠ ∅) (now : Int) :
    Machine.Reachable State.step (image s false .head coroutine delivered)
      (image (s.poll now) false (pcOf (s.poll now).pc) coroutine delivered) := by
  let polled := s.timers.getDelay now
  let woken := polled.woken.foldl Reactor.wake { s with timers := polled.pool }
  have locked : Machine.Reachable State.step (image s false .head coroutine delivered)
      (image { s with timers := polled.pool } true (.waking none polled.woken (.timers polled))
        coroutine delivered) := by
    refine reachable_of_work (.clock now) ?_
    simp only [State.work, image, active, if_false, Bool.false_eq_true]
    rfl
  have unlocked : Machine.Reachable State.step
      (image woken true (.waking none [] (.timers polled)) coroutine delivered)
      (image woken false (.polled polled) coroutine delivered) := reachable_of_work .go rfl
  have tested : Machine.Reachable State.step
      (image woken false (.polled polled) coroutine delivered)
      (image (s.poll now) false (pcOf (s.poll now).pc) coroutine delivered) :=
    reachable_of_work .go rfl
  exact ((locked.trans (reachable_wakes _ _)).trans unlocked).trans tested

/-- `epoll::run`. -/
theorem reachable_complete
    {waitTime : Int} {events : List (Registration Key × Bool)}
    (possible : s.epoll.CanReport (events.map Prod.fst)) :
    ∃ delivered', Machine.Reachable State.step
      (image s false (.calling waitTime) coroutine delivered)
      (image (s.complete events) false .completed coroutine delivered') := by
  have tasks : (events.map Prod.fst).map Registration.task = events.map fun event => event.1.task :=
    List.map_map
  have reported : Machine.Reachable State.step
      (image s false (.calling waitTime) coroutine delivered)
      (image { s with epoll := s.epoll.disarm (events.map Prod.fst) } false
        (.waking none (events.map fun event => event.1.task) .events) coroutine
        ((image s false (.calling waitTime) coroutine delivered).report
          (events.map Prod.fst)).delivered) := by
    refine reachable_of_work (.report (events.map Prod.fst)) ?_
    rw [← tasks]
    exact if_pos possible
  exact ⟨_, (reported.trans (reachable_deliveries _ _)).trans (reachable_of_work .go rfl)⟩

end

end Workers
end Cppio
