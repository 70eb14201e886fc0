import Cppio.Workers.Machine
import Mathlib.Tactic.SplitIfs

/-!
# The lock of the timer pool

`get_delay` calls `wake()` with the lock of `m_timers`, and the coroutines of a task may want
it in `start_timer`.  At most one worker is in the loop of `get_delay`, it never waits for
another one there, and where no worker is, every worker can go on.
-/

namespace Cppio
namespace Workers

variable {Worker Key : Type} [DecidableEq Worker]

/-- The worker is in `get_delay`. -/
def Pc.polls : Pc Key → Bool
  | .waking _ _ (.timers _) => true
  | _ => false

/-- How many steps the worker is from the end of `get_delay`. -/
def Pc.stepsToUnlock : Pc Key → Nat
  | .waking none rest (.timers _) => 2 * rest.length + 1
  | .waking (some _) rest (.timers _) => 2 * rest.length + 2
  | _ => 0

/-- The lock is taken just where a worker is in `get_delay`, and then by that one alone. -/
structure Locks (s : State Worker Key) : Prop where
  held : s.timersLock = true ↔ ∃ worker, (s.pc worker).polls = true
  alone : ∀ worker other, (s.pc worker).polls = true → (s.pc other).polls = true → worker = other

variable {s next : State Worker Key} {worker : Worker}

/-- A worker that goes on neither takes the lock nor releases it. -/
theorem Locks.goto
    {pc : Pc Key} {s' : State Worker Key} (locks : Locks s) (lock : s'.timersLock = s.timersLock)
    (pcs : s'.pc = s.pc) (polls : pc.polls = (s.pc worker).polls) : Locks (s'.goto worker pc) := by
  have same : ∀ other, ((s'.goto worker pc).pc other).polls = (s.pc other).polls := by
    intro other
    change (Function.update s'.pc worker pc other).polls = _
    by_cases here : other = worker
    · subst here
      rw [Function.update_self]
      exact polls
    · rw [Function.update_of_ne here, pcs]
  refine ⟨?_, fun first second here there => ?_⟩
  · change s'.timersLock = true ↔ _
    rw [lock, locks.held]
    exact exists_congr fun other => by rw [same]
  · rw [same] at here there
    exact locks.alone first second here there

omit [DecidableEq Worker] in
theorem State.parkStep_timersLock
    [DecidableEq Key] {task : TaskId} {succeeds : Bool} {now : Int} {step : ParkStep Key}
    (parked : s.parkStep task succeeds now step = some next) :
    next.timersLock = s.timersLock := by
  cases step with
  | startTimer delay =>
      simp only [State.parkStep] at parked
      split_ifs at parked
      obtain rfl := Option.some.inj parked
      rfl
  | _ =>
      obtain rfl := Option.some.inj parked
      rfl

omit [DecidableEq Worker] in
theorem Locks.congr
    (locks : Locks s) (lock : next.timersLock = s.timersLock) (pcs : next.pc = s.pc) :
    Locks next where
  held := by
    rw [lock, pcs]
    exact locks.held
  alone := by
    rw [pcs]
    exact locks.alone

variable [DecidableEq Key] {choice : Choice Key}

theorem Locks.moves (locks : Locks s) (moves : Moves s worker choice next) : Locks next := by
  cases moves with
  | poll here unlocked now =>
      have nobody : ∀ other, (s.pc other).polls = false := by
        intro other
        refine Bool.eq_false_iff.mpr fun polls => ?_
        cases unlocked.symm.trans (locks.held.mpr ⟨other, polls⟩)
      have only : ∀ other, (Function.update s.pc worker
          (.waking none (s.timers.getDelay now).woken (.timers (s.timers.getDelay now)))
            other).polls = true → other = worker := by
        intro other polls
        by_contra different
        rw [Function.update_of_ne different, nobody other] at polls
        cases polls
      refine ⟨iff_of_true rfl ⟨worker, ?_⟩, fun first second here there => ?_⟩
      · change (Function.update s.pc worker _ worker).polls = true
        rw [Function.update_self]
        rfl
      · exact (only first here).trans (only second there).symm
  | @unlock poll here =>
      have nobody : ∀ other,
          (Function.update s.pc worker (.polled poll) other).polls = false := by
        intro other
        by_cases same : other = worker
        · subst same
          rw [Function.update_self]
          rfl
        · rw [Function.update_of_ne same]
          refine Bool.eq_false_iff.mpr fun polls => same ?_
          exact locks.alone other worker polls (by rw [here]; rfl)
      refine ⟨iff_of_false Bool.false_ne_true ?_, fun first second polls => ?_⟩
      · rintro ⟨other, polls⟩
        cases (nobody other).symm.trans polls
      · cases (nobody first).symm.trans polls
  | @store task rest source here =>
      refine locks.goto rfl rfl ?_
      rw [here]
      cases source with
      | _ => rfl
  | @push task rest source here =>
      refine locks.goto rfl rfl ?_
      rw [here]
      cases source with
      | _ => rfl
  | park here parked =>
      obtain ⟨pcs, -⟩ := State.parkStep_frame parked
      exact locks.goto (State.parkStep_timersLock parked) pcs (by rw [here]; rfl)
  | failAssertion => exact locks.congr rfl rfl
  | walkRunning => exact locks.congr rfl rfl
  | resumeTwice => exact locks.congr rfl rfl
  | spawn => exact locks.congr rfl rfl
  | childReturns => exact locks
  | checkRunning => exact locks.congr rfl rfl
  | _ => exact locks.goto rfl rfl (by simp [Pc.polls, *])

theorem locks_of_reachable
    (reachable : Machine.Reachable State.step (State.initial : State Worker Key) s) : Locks s := by
  have initially : Locks (State.initial : State Worker Key) :=
    ⟨iff_of_false Bool.false_ne_true (by rintro ⟨worker, ⟨⟩⟩), fun _ _ => nofun⟩
  refine Machine.invariant_of_reachable (fun s label next locks stepped => ?_) initially reachable
  cases label with
  | work worker choice =>
      unfold State.step at stepped
      split_ifs at stepped
      exact locks.moves (moves_of_work stepped)
  | _ =>
      simp only [State.step] at stepped
      split_ifs at stepped
      obtain rfl := Option.some.inj stepped
      exact locks.congr rfl rfl

/-! ## No deadlock -/

/-- The worker has released the lock, and changed no other worker. -/
structure Released (s : State Worker Key) (worker : Worker) (next : State Worker Key) : Prop where
  unlocked : next.timersLock = false
  defined : next.undefined = false
  others : ∀ other ≠ worker, next.pc other = s.pc other

omit [DecidableEq Worker] [DecidableEq Key] in
theorem Released.after
    {middle : State Worker Key} (released : Released middle worker next)
    (others : ∀ other ≠ worker, middle.pc other = s.pc other) : Released s worker next where
  unlocked := released.unlocked
  defined := released.defined
  others other different := (released.others other different).trans (others other different)

/-- A step of the worker, in a state where nothing undefined has happened. -/
theorem run_work
    {labels : List (Label Worker Key)} (defined : s.undefined = false)
    (worked : s.work worker .go = some next) :
    Machine.run State.step s (.work worker .go :: labels) = Machine.run State.step next labels := by
  have stepped : s.step (.work worker .go) = some next := by
    rw [State.step, defined]
    exact worked
  rw [Machine.run_cons, stepped, Option.bind_some]

omit [DecidableEq Key] in
theorem pc_goto_of_ne (s : State Worker Key) (worker : Worker) (pc : Pc Key) :
    ∀ other ≠ worker, (s.goto worker pc).pc other = s.pc other :=
  fun _ different => Function.update_of_ne different _ _

/-- The `kRun` is stored; `wake()` goes on with `schedule`. -/
theorem unlocks_stored
    {task : TaskId} {rest : List TaskId} {poll : Poll TaskId} {steps : Nat}
    (defined : s.undefined = false)
    (here : s.pc worker = .waking (some task) rest (.timers poll))
    (unlocks : ∀ {s : State Worker Key}, s.undefined = false →
      s.pc worker = .waking none rest (.timers poll) →
      ∃ next, Machine.run State.step s (List.replicate steps (.work worker .go)) = some next ∧
        Released s worker next) :
    ∃ next, Machine.run State.step s (List.replicate (steps + 1) (.work worker .go)) = some next ∧
      Released s worker next := by
  have pushes : s.work worker .go =
      some ((s.schedule task).goto worker (.waking none rest (.timers poll))) := by
    simp only [State.work, here]
  obtain ⟨next, ran, released⟩ :=
    unlocks (s := (s.schedule task).goto worker (.waking none rest (.timers poll))) defined
      (Function.update_self ..)
  refine ⟨next, ?_, released.after (pc_goto_of_ne _ _ _)⟩
  rw [List.replicate_succ, run_work defined pushes]
  exact ran

theorem unlocks_waking
    {rest : List TaskId} {poll : Poll TaskId} (defined : s.undefined = false)
    (here : s.pc worker = .waking none rest (.timers poll)) :
    ∃ next, Machine.run State.step s (List.replicate (2 * rest.length + 1) (.work worker .go)) =
      some next ∧ Released s worker next := by
  induction rest generalizing s with
  | nil =>
      have worked : s.work worker .go =
          some ({ s with timersLock := false }.goto worker (.polled poll)) := by
        simp only [State.work, here]
      exact ⟨_, run_work defined worked, rfl, defined, pc_goto_of_ne _ _ _⟩
  | cons task rest inductionHypothesis =>
      have stores : s.work worker .go =
          some ((s.setState task .run).goto worker (.waking (some task) rest (.timers poll))) := by
        simp only [State.work, here]
      obtain ⟨next, ran, released⟩ := unlocks_stored
        (s := (s.setState task .run).goto worker (.waking (some task) rest (.timers poll))) defined
        (Function.update_self ..) inductionHypothesis
      refine ⟨next, ?_, released.after (pc_goto_of_ne _ _ _)⟩
      have more : 2 * (task :: rest).length + 1 = (2 * rest.length + 1 + 1) + 1 := by
        rw [List.length_cons]
        omega
      rw [more, List.replicate_succ, run_work defined stores]
      exact ran

/-- The loop of `get_delay` needs no other worker. -/
theorem unlocks
    (defined : s.undefined = false) (polls : (s.pc worker).polls = true) :
    ∃ next, Machine.run State.step s
        (List.replicate (s.pc worker).stepsToUnlock (.work worker .go)) = some next ∧
      Released s worker next := by
  cases here : s.pc worker with
  | waking stored rest source =>
      rw [here] at polls
      cases source with
      | events => cases polls
      | timers poll =>
          cases stored with
          | none => exact unlocks_waking defined here
          | some task => exact unlocks_stored defined here unlocks_waking
  | _ =>
      rw [here] at polls
      cases polls

/-- Where no other worker has the lock, a worker that has not left `run` can go on. -/
theorem goes_on
    (free : s.timersLock = true → (s.pc worker).polls = true) (inside : s.pc worker ≠ .exited) :
    ∃ choice next, s.work worker choice = some next := by
  suffices ∃ choice, (s.work worker choice).isSome = true by
    obtain ⟨choice, possible⟩ := this
    exact ⟨choice, Option.isSome_iff_exists.mp possible⟩
  have unlocked : (s.pc worker).polls = false → s.timersLock = false := by
    intro elsewhere
    refine Bool.eq_false_iff.mpr fun lock => ?_
    cases elsewhere.symm.trans (free lock)
  cases here : s.pc worker with
  | exited => exact absurd here inside
  | head =>
      have open' : s.timersLock = false := unlocked (by rw [here]; rfl)
      refine ⟨.clock 0, ?_⟩
      by_cases noTask : s.active = ∅
      · simp [State.work, here, noTask]
      · simp [State.work, here, noTask, open']
  | waking stored rest source =>
      refine ⟨.go, ?_⟩
      cases stored with
      | some task => simp [State.work, here]
      | none =>
          cases rest with
          | cons task rest => simp [State.work, here]
          | nil =>
              cases source with
              | _ => simp [State.work, here]
  | calling waitTime =>
      have possible : s.epoll.CanReport [] := ⟨List.nodup_nil, List.nil_subset _, Nat.zero_le _⟩
      exact ⟨.report [], by simp [State.work, here, possible]⟩
  | executing task steps =>
      cases steps with
      | none => exact ⟨.finish, by simp [State.work, here]⟩
      | some steps =>
          cases steps with
          | nil => exact ⟨.go, by simp [State.work, here]⟩
          | cons step rest =>
              have open' : s.timersLock = false := unlocked (by rw [here]; rfl)
              refine ⟨.park true 0, ?_⟩
              cases step with
              | _ => simp [State.work, here, State.parkStep, open']
  | returned task result =>
      refine ⟨.go, ?_⟩
      cases result with
      | _ => simp [State.work, here]
  | processing =>
      refine ⟨.go, ?_⟩
      cases queue : s.tasks with
      | _ => simp [State.work, here, queue]
  | entered task =>
      refine ⟨.go, ?_⟩
      by_cases waits : s.state task = .wait
      · simp [State.work, here, waits]
      · simp [State.work, here, waits]
  | walking task =>
      refine ⟨.go, ?_⟩
      cases coroutine : s.coroutine task with
      | _ => simp [State.work, here, coroutine]
  | resuming task =>
      refine ⟨.go, ?_⟩
      by_cases isSuspended : s.coroutine task = .suspended
      · simp [State.work, here, isSuspended]
      · simp [State.work, here, isSuspended]
  | suspended task =>
      refine ⟨.go, ?_⟩
      cases coroutine : s.coroutine task with
      | _ => simp [State.work, here, coroutine]
  | _ => exact ⟨.go, by simp [State.work, here]⟩

/-- The workers never wait for each other in a circle, and at most one is in `get_delay`: from
every reachable state in which nothing undefined has happened, a worker that has not left `run`
can go on now, or another one is in `get_delay`, and can go on after the steps that that one
needs to leave it. -/
theorem no_deadlock
    (reachable : Machine.Reachable State.step (State.initial : State Worker Key) s)
    (defined : s.undefined = false) (inside : s.pc worker ≠ .exited) :
    (∀ first second, (s.pc first).polls = true → (s.pc second).polls = true → first = second) ∧
      ((∃ choice next, s.work worker choice = some next) ∨
        ∃ holder middle, holder ≠ worker ∧ (s.pc holder).polls = true ∧
          Machine.run State.step s
            (List.replicate (s.pc holder).stepsToUnlock (.work holder .go)) = some middle ∧
          middle.pc worker = s.pc worker ∧
          ∃ choice next, middle.work worker choice = some next) := by
  have locks := locks_of_reachable reachable
  refine ⟨locks.alone, ?_⟩
  by_cases free : s.timersLock = true → (s.pc worker).polls = true
  · exact Or.inl (goes_on free inside)
  · obtain ⟨lock, elsewhere⟩ := Classical.not_imp.mp free
    obtain ⟨holder, polls⟩ := locks.held.mp lock
    have different : worker ≠ holder := by
      rintro rfl
      exact elsewhere polls
    obtain ⟨middle, ran, released⟩ := unlocks defined polls
    have there := released.others worker different
    refine Or.inr ⟨holder, middle, different.symm, polls, ran, there, ?_⟩
    refine goes_on (fun lock => ?_) (there ▸ inside)
    cases released.unlocked.symm.trans lock

/-- One worker is in `get_delay`, and another one is at the loop test of `run`. -/
def contend : List (Label Bool Nat) := [.spawn, .work false (.clock 0)]

theorem no_deadlock_contend :
    ∃ s, Machine.run State.step (State.initial : State Bool Nat) contend = some s ∧
      s.undefined = false ∧
      (∀ first second, (s.pc first).polls = true → (s.pc second).polls = true → first = second) ∧
      ((∃ choice next, s.work true choice = some next) ∨
        ∃ holder middle, holder ≠ true ∧ (s.pc holder).polls = true ∧
          Machine.run State.step s
            (List.replicate (s.pc holder).stepsToUnlock (.work holder .go)) = some middle ∧
          middle.pc true = s.pc true ∧ ∃ choice next, middle.work true choice = some next) := by
  obtain ⟨s, ran, defined, inside⟩ :
      ∃ s, Machine.run State.step (State.initial : State Bool Nat) contend = some s ∧
        s.undefined = false ∧ s.pc true ≠ .exited := ⟨_, rfl, rfl, nofun⟩
  exact ⟨s, ran, defined, no_deadlock ⟨contend, ran⟩ defined inside⟩

end Workers
end Cppio
