import Cppio.Reactor.Discipline

/-!
# When `run` returns

The active tasks are exactly those that were spawned and whose own coroutine is
not done, after every step.  The loop of `run` ends when there are none, or when
`m_running` has been cleared.
-/

namespace Cppio
namespace Reactor

variable {User Own Local Key Outside : Type} [DecidableEq Key]
variable {surroundings : Surroundings User Own Local Key Outside} {outside : Outside}

omit [DecidableEq Key] in
/-- `m_active_tasks` holds the spawned tasks that are not done. -/
theorem Disciplined.mem_active_iff
    {s : Reactor User Own Key Outside} (disciplined : Disciplined s) (task : TaskId) :
    task ∈ s.active ↔ task < s.spawned ∧ ¬s.Done task := by
  cases disciplined.standing task with
  | unborn unborn inactive =>
      exact ⟨fun active => absurd active inactive, fun ⟨born, _⟩ => absurd born unborn.not_gt⟩
  | ready born active suspended =>
      exact ⟨fun _ => ⟨born, fun ⟨value, done⟩ => suspended.unfinished value done⟩, fun _ => active⟩
  | parked born active suspended =>
      exact ⟨fun _ => ⟨born, fun ⟨value, done⟩ => suspended.unfinished value done⟩, fun _ => active⟩
  | done born inactive done =>
      exact ⟨fun active => absurd active inactive, fun ⟨_, unfinished⟩ => absurd done unfinished⟩

omit [DecidableEq Key] in
theorem Disciplined.done_of_inactive
    {s : Reactor User Own Key Outside} (disciplined : Disciplined s) {task : TaskId}
    (born : task < s.spawned) (inactive : task ∉ s.active) : s.Done task := by
  by_contra unfinished
  exact inactive ((disciplined.mem_active_iff task).mpr ⟨born, unfinished⟩)

/-- `run` returns at its loop test, without active tasks, or at its test of
`m_running`. -/
theorem Disciplined.exits
    {s next : Reactor User Own Key Outside} {label : Label User Key Outside}
    (disciplined : Disciplined s) (moves : Moves surroundings s label next)
    (inside : s.pc ≠ .returned) (returned : next.pc = .returned) :
    next.active = ∅ ∨ next.running = false := by
  cases moves with
  | call here => exact absurd here inside
  | exit here noTask => exact Or.inl noTask
  | poll here => cases returned
  | complete here possible => cases returned
  | proceed here running => cases returned
  | leave here stopped => exact Or.inr stopped
  | idle here noTask fuel => cases returned
  | round here first processed =>
      obtain ⟨-, -, processing, -⟩ :=
        standing_process disciplined.standing first disciplined.defined here processed
      rw [processing] at returned
      cases returned
  | deed deed =>
      have same : (s.deed deed).pc = s.pc := by cases deed with | _ => rfl
      exact absurd (same.symm.trans returned) inside
  | outside outside => exact absurd returned inside

/-- While the reactor is not being destroyed, a step with which `run` returns
leaves every task that was ever spawned run to completion; and a step removes
only tasks from `m_active_tasks` whose own coroutine is done. -/
theorem waits_for_all
    {s next : Reactor User Own Key Outside} {label : Label User Key Outside}
    (reachable : Machine.Reachable (step surroundings) (initial outside) s)
    (stepped : step surroundings s label = some next) :
    (s.pc ≠ .returned → next.pc = .returned → next.running = true →
        ∀ task < next.spawned, next.Done task) ∧
      ∀ task ∈ s.active, task ∉ next.active → next.Done task := by
  have disciplined := disciplined_of_reachable reachable
  obtain ⟨disciplinedNext, spawned⟩ := disciplined.moves (moves_of_step stepped)
  constructor
  · intro inside returned running task born
    apply disciplinedNext.done_of_inactive born
    rcases disciplined.exits (moves_of_step stepped) inside returned with none | stopped
    · simp [none]
    · simp [running] at stopped
  · intro task active inactive
    have born := ((disciplined.mem_active_iff task).mp active).1
    exact disciplinedNext.done_of_inactive (born.trans_le spawned) inactive

/-- The rest of the nap, up to the last test of the loop of `run`. -/
def wakeUp : List (Label Bool Nat Int) :=
  [.outside 5, .test, .complete [], .proceed, .process 9, .process 9]

theorem waits_for_all_nap :
    ∃ s next, Machine.run (step napping) (initial 0) (nap ++ wakeUp) = some s ∧
      step napping s .test = some next ∧ next.pc = .returned ∧
      (s.pc ≠ .returned → next.pc = .returned → next.running = true →
        ∀ task < next.spawned, next.Done task) ∧
      ∀ task ∈ s.active, task ∉ next.active → next.Done task := by
  obtain ⟨s, next, ran, stepped, returned⟩ : ∃ s next,
      Machine.run (step napping) (initial 0) (nap ++ wakeUp) = some s ∧
        step napping s .test = some next ∧ next.pc = .returned :=
    ⟨_, _, rfl, rfl, rfl⟩
  exact ⟨s, next, ran, stepped, returned, waits_for_all ⟨nap ++ wakeUp, ran⟩ stepped⟩

end Reactor

end Cppio
