import Cppio.Workers.Machine

/-!
# The wait time of `run`

`run` replaces a zero delay by one second when `m_tasks` is empty, and leaves
every other delay as `get_delay` returned it.  A worker therefore blocks beside
ready tasks when `get_delay` has woken some timers and left others, and when a
task is scheduled between the test and the call.
-/

namespace Cppio
namespace Workers

variable {Worker Key : Type} [DecidableEq Worker] [DecidableEq Key]

/-- Whoever is about to call `m_completion_object.run`, or is in that call,
while a task is ready does so with a zero wait time. -/
def Awake (s : State Worker Key) : Prop :=
  ∀ worker waitTime, s.pc worker = .calling waitTime → s.tasks ≠ [] → waitTime = 0

def Source.poll? : Source → Option (Poll TaskId)
  | .timers poll => some poll
  | .events => none

/-- The result of a `get_delay` that a worker carries. -/
def Pc.poll? : Pc Key → Option (Poll TaskId)
  | .waking _ _ source => source.poll?
  | .polled poll => some poll
  | _ => none

/-- Every carried delay is zero exactly when `get_delay` left no entry. -/
def DelaysKnown (s : State Worker Key) : Prop :=
  ∀ worker poll, (s.pc worker).poll? = some poll →
    (poll.waitTime = 0 ↔ poll.pool.tasks = [])

/-- The step appends a task to `m_tasks`. -/
def Pushes (s : State Worker Key) : Label Worker Key → Prop
  | .work worker .go =>
      (∃ task rest source, s.pc worker = .waking (some task) rest source) ∨
        ∃ task, s.pc worker = .returned task .run
  | .work _ .spawn => True
  | .spawn => True
  | _ => False

/-- At the test of `run` either no task is ready or `get_delay` has left no
entry, and no task is scheduled while a worker is about to block or blocks. -/
structure KeepsAwake (s : State Worker Key) (label : Label Worker Key) : Prop where
  test : ∀ worker poll, label = .work worker .go → s.pc worker = .polled poll →
    s.tasks = [] ∨ poll.pool.tasks = []
  push : Pushes s label → ∀ worker waitTime, s.pc worker = .calling waitTime → waitTime = 0

omit [DecidableEq Key] in
theorem DelaysKnown.goto
    {s : State Worker Key} {pc : Pc Key}
    (known : DelaysKnown s)
    (worker : Worker)
    (knownHere : ∀ poll, pc.poll? = some poll →
      (poll.waitTime = 0 ↔ poll.pool.tasks = [])) :
    DelaysKnown (s.goto worker pc) := by
  intro other poll carried
  simp only [State.goto, Function.update_apply] at carried
  split_ifs at carried
  · exact knownHere poll carried
  · exact known other poll carried

theorem DelaysKnown.moves
    {s next : State Worker Key} {worker : Worker} {choice : Choice Key}
    (known : DelaysKnown s)
    (moves : Moves s worker choice next) :
    DelaysKnown next := by
  cases moves with
  | poll here unlocked now =>
      apply DelaysKnown.goto known worker
      intro poll carried
      obtain rfl := Option.some.inj carried
      rw [TimerPool.getDelay_waitTime_eq_zero_iff, TimerPool.getDelay_pool]
  | store here =>
      exact DelaysKnown.goto known worker fun poll carried =>
        known worker poll (by rw [here]; exact carried)
  | push here =>
      exact DelaysKnown.goto known worker fun poll carried =>
        known worker poll (by rw [here]; exact carried)
  | unlock here =>
      exact DelaysKnown.goto known worker fun poll carried =>
        known worker poll (by rw [here]; exact carried)
  | @park task step rest middle here succeeds now parked =>
      have knownNext : DelaysKnown middle := fun other poll carried =>
        known other poll ((State.parkStep_frame parked).1 ▸ carried)
      exact knownNext.goto worker (by simp [Pc.poll?])
  | childReturns => exact known
  | spawn => exact known
  | failAssertion => exact known
  | walkRunning => exact known
  | resumeTwice => exact known
  | checkRunning => exact known
  | _ => exact DelaysKnown.goto known worker (by simp [Pc.poll?, Source.poll?])

theorem DelaysKnown.step
    {s next : State Worker Key} {label : Label Worker Key}
    (known : DelaysKnown s)
    (stepped : s.step label = some next) :
    DelaysKnown next := by
  obtain ⟨worker, choice, -, moves⟩ | ⟨-, rfl⟩ | ⟨-, rfl⟩ | ⟨key, -, rfl⟩ := step_cases stepped
  · exact known.moves moves
  · exact known
  · exact known
  · exact known

omit [DecidableEq Worker] [DecidableEq Key] in
theorem delaysKnown_initial : DelaysKnown (State.initial : State Worker Key) := by
  intro worker poll carried
  simp [State.initial, Pc.poll?] at carried

/-! ## Steps of a worker that is about to block -/

omit [DecidableEq Key] in
theorem Awake.goto
    {s : State Worker Key} {pc : Pc Key}
    (awake : Awake s)
    (worker : Worker)
    (awakeHere : ∀ waitTime, pc = .calling waitTime → s.tasks ≠ [] → waitTime = 0) :
    Awake (s.goto worker pc) := by
  intro other waitTime calls ready
  simp only [State.goto, Function.update_apply] at calls
  split_ifs at calls
  · exact awakeHere waitTime calls ready
  · exact awake other waitTime calls ready

omit [DecidableEq Worker] [DecidableEq Key] in
/-- With a ready task, the wait time is zero exactly when no entry is left. -/
theorem waitTime_eq_zero
    {s : State Worker Key} {worker : Worker} {poll : Poll TaskId}
    (known : DelaysKnown s)
    (here : s.pc worker = .polled poll)
    (ready : s.tasks ≠ []) :
    s.waitTime poll = 0 ↔ poll.pool.tasks = [] := by
  have delay := known worker poll (by rw [here]; rfl)
  rw [State.waitTime, if_neg fun both => ready both.1, delay]

theorem Awake.moves
    {s next : State Worker Key} {worker : Worker} {choice : Choice Key}
    (awake : Awake s)
    (known : DelaysKnown s)
    (keeps : KeepsAwake s (.work worker choice))
    (moves : Moves s worker choice next) :
    Awake next := by
  cases moves with
  | test here =>
      apply awake.goto worker
      intro waitTime calls ready
      obtain rfl := Pc.calling.inj calls
      apply (waitTime_eq_zero known here ready).mpr
      exact (keeps.test worker _ rfl here).resolve_left ready
  | @push task _ _ here =>
      have noBlock := keeps.push (Or.inl ⟨_, _, _, here⟩)
      have awakeNext : Awake (s.schedule task) := fun other waitTime calls _ =>
        noBlock other waitTime calls
      exact awakeNext.goto worker (by simp)
  | @requeue task here =>
      have noBlock := keeps.push (Or.inr ⟨_, here⟩)
      have awakeNext : Awake (s.schedule task) := fun other waitTime calls _ =>
        noBlock other waitTime calls
      exact awakeNext.goto worker (by simp)
  | spawn here =>
      have noBlock := keeps.push trivial
      exact fun other waitTime calls _ => noBlock other waitTime calls
  | pop here first =>
      refine Awake.goto (fun other waitTime calls _ => ?_) worker (by simp)
      exact awake other waitTime calls (by simp [first])
  | @park task step rest middle here succeeds now parked =>
      obtain ⟨samePc, sameTasks, -⟩ := State.parkStep_frame parked
      refine Awake.goto (fun other waitTime calls ready => ?_) worker (by simp)
      exact awake other waitTime (samePc ▸ calls) (sameTasks ▸ ready)
  | childReturns => exact awake
  | failAssertion => exact awake
  | walkRunning => exact awake
  | resumeTwice => exact awake
  | checkRunning => exact awake
  | _ => exact Awake.goto awake worker (by simp)

theorem Awake.step
    {s next : State Worker Key} {label : Label Worker Key}
    (awake : Awake s)
    (known : DelaysKnown s)
    (keeps : KeepsAwake s label)
    (stepped : s.step label = some next) :
    Awake next := by
  obtain ⟨worker, choice, rfl, moves⟩ | ⟨rfl, rfl⟩ | ⟨rfl, rfl⟩ | ⟨key, rfl, rfl⟩ :=
    step_cases stepped
  · exact awake.moves known keeps moves
  · exact fun worker waitTime calls _ => keeps.push trivial worker waitTime calls
  · exact awake
  · exact awake

/-- A step that schedules a task leaves it in the queue and moves nobody who is
about to block. -/
theorem Pushes.step
    {s next : State Worker Key} {label : Label Worker Key}
    (pushes : Pushes s label)
    (stepped : s.step label = some next) :
    next.tasks ≠ [] ∧ ∀ worker waitTime, s.pc worker = .calling waitTime →
      next.pc worker = .calling waitTime := by
  obtain ⟨worker, choice, rfl, moves⟩ | ⟨rfl, rfl⟩ | ⟨rfl, rfl⟩ | ⟨key, rfl, rfl⟩ :=
    step_cases stepped
  · have others : ∀ other waitTime pc, s.pc other = .calling waitTime →
        s.pc worker = pc → (∀ time, pc ≠ .calling time) → other ≠ worker := by
      rintro other waitTime pc calls here notCalling rfl
      exact notCalling waitTime (here.symm.trans calls)
    cases moves with
    | push here =>
        refine ⟨by simp [State.goto, State.schedule], fun other waitTime calls => ?_⟩
        have different := others other waitTime _ calls here (by simp)
        simpa [State.goto, State.schedule, different] using calls
    | requeue here =>
        refine ⟨by simp [State.goto, State.schedule], fun other waitTime calls => ?_⟩
        have different := others other waitTime _ calls here (by simp)
        simpa [State.goto, State.schedule, different] using calls
    | spawn here => exact ⟨by simp [State.spawn], fun other waitTime calls => calls⟩
    | _ => simp_all [Pushes]
  · exact ⟨by simp [State.spawn], fun other waitTime calls => calls⟩
  · cases pushes
  · cases pushes

/-- A step that leaves everybody awake is one that keeps everybody awake. -/
theorem keepsAwake_of_step
    {s next : State Worker Key} {label : Label Worker Key}
    (known : DelaysKnown s)
    (stepped : s.step label = some next)
    (awake : Awake next) :
    KeepsAwake s label where
  test worker poll labelled here := by
    subst labelled
    by_cases ready : s.tasks = []
    · exact Or.inl ready
    · right
      simp only [State.step, State.work, here] at stepped
      split_ifs at stepped
      obtain rfl := Option.some.inj stepped
      have zero := awake worker (s.waitTime poll) (by simp [State.goto]) ready
      exact (waitTime_eq_zero known here ready).mp zero
  push pushes worker waitTime calls := by
    obtain ⟨ready, same⟩ := pushes.step stepped
    exact awake worker waitTime (same worker waitTime calls) ready

/-- On every run of any number of workers, a worker is about to call
`m_completion_object.run` with a non-zero wait time only while `m_tasks` is
empty, exactly if every step of the run keeps awake. -/
theorem awake_iff (labels : List (Label Worker Key)) :
    Machine.AllStates State.step Awake State.initial labels ↔
      Machine.AllSteps State.step KeepsAwake State.initial labels := by
  refine Machine.allStates_iff_allSteps
    (fun s (holds : Awake s ∧ DelaysKnown s) => holds.1) ?_ ?_ ?_ labels
  · exact fun s label next holds keeps stepped =>
      ⟨holds.1.step holds.2 keeps stepped, holds.2.step stepped⟩
  · exact fun s label next holds stepped awake => keepsAwake_of_step holds.2 stepped awake
  · exact ⟨fun worker waitTime calls => by simp [State.initial] at calls, delaysKnown_initial⟩

/-- The only worker gets through a round of `run` up to `process_tasks`. -/
def emptyRound (now : Int) : List (Label Unit Nat) :=
  [.work () (.clock now), .work () .go, .work () .go, .work () (.report []),
    .work () .go, .work () .go]

/-- The only worker pops a task, which sleeps. -/
def sleepFor (delay : Int) : List (Label Unit Nat) :=
  [.work () .go, .work () .go, .work () .go, .work () .go, .work () .go,
    .work () (.start (.sleep delay)), .work () (.park true 0), .work () (.park true 0),
    .work () .go, .work () .go, .work () .go, .work () .go]

/-- Two tasks sleep for 1 and for 5; the clock is at 1 at the next `get_delay`. -/
def twoSleepers : List (Label Unit Nat) :=
  [.spawn, .spawn] ++ emptyRound 0 ++ sleepFor 1 ++ sleepFor 5 ++
    [.work () .go, .work () (.clock 1), .work () .go, .work () .go, .work () .go, .work () .go]

/-- `run` blocks for the timer that is left, beside the task it has woken. -/
theorem not_awake_twoSleepers :
    ¬∀ s, Machine.Reachable State.step (State.initial : State Unit Nat) s → Awake s := by
  intro always
  have blocks : ∃ s, Machine.run State.step (State.initial : State Unit Nat) twoSleepers =
      some s ∧ s.pc () = .calling 4 ∧ s.tasks = [0] :=
    ⟨_, rfl, rfl, rfl⟩
  obtain ⟨s, ran, calls, ready⟩ := blocks
  have zero := always s ⟨twoSleepers, ran⟩ () 4 calls (by simp [ready])
  exact absurd zero (by decide)

end Workers
end Cppio
