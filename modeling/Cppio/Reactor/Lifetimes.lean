import Cppio.Reactor.Parked
import Cppio.Task.Ownership

/-!
# How long coroutine frames live

Whatever the tasks of a reactor do, between two steps the frames of a task are those of its
own coroutine and of the ones that are awaited in it, and of a task that is done the first
of these alone is left, to be destroyed with the task.
-/

namespace Cppio
namespace Reactor

variable {User Own Local Key Outside : Type}
variable {s next : Reactor User Own Key Outside}

/-- The frames of every spawned task are a chain of owners. -/
def Kept (s : Reactor User Own Key Outside) : Prop :=
  ∀ task < s.spawned, (s.frames task).Owned

theorem Kept.congr
    (kept : Kept s) (spawned : next.spawned = s.spawned) (frames : next.frames = s.frames) :
    Kept next := by
  intro task born
  rw [frames]
  exact kept task (spawned ▸ born)

theorem Kept.setFrames
    (kept : Kept s) (task : TaskId) {frames : Frames (Code User Own) (Result Own)}
    (owned : frames.Owned) : Kept (s.setFrames task frames) := by
  intro other born
  change (Function.update s.frames task frames other).Owned
  by_cases same : other = task
  · subst same
    rw [Function.update_self]
    exact owned
  · rw [Function.update_of_ne same]
    exact kept other born

theorem Kept.spawn (kept : Kept s) (start : Start User) : Kept (s.spawn start) := by
  intro task born
  change (Function.update s.frames s.spawned (Frames.ofCode start.code) task).Owned
  by_cases same : task = s.spawned
  · subst same
    rw [Function.update_self]
    exact Frames.owned_ofCode start.code
  · rw [Function.update_of_ne same]
    exact kept task (Nat.lt_of_le_of_ne (Nat.le_of_lt_succ born) same)

theorem Kept.settle (kept : Kept s) (task : TaskId) (result : ScheduleType) :
    Kept (s.settle task result) := by
  cases result with
  | _ => exact kept.congr rfl rfl

variable [DecidableEq Key]

theorem Kept.deed (kept : Kept s) (deed : Deed User Key) : Kept (s.deed deed) := by
  cases deed with
  | spawn start => exact kept.spawn start
  | _ => exact kept.congr rfl rfl

theorem Kept.deeds (kept : Kept s) (deeds : List (Deed User Key)) :
    Kept (deeds.foldl Reactor.deed s) := by
  induction deeds generalizing s with
  | nil => exact kept
  | cons deed deeds inductionHypothesis => exact inductionHypothesis (kept.deed deed)

variable {surroundings : Surroundings User Own Local Key Outside}

theorem preserves_kept
    (surroundings : Surroundings User Own Local Key Outside) (task : TaskId) :
    (system surroundings task).Preserves Kept where
  perform := by
    intro effect s kept
    cases effect with
    | syscall call =>
        exact Kept.deeds (s := { s with outside := (surroundings.syscall call s.outside).2.2 })
          (kept.congr rfl rfl) _
    | register interest sock =>
        change Kept (perform surroundings task _ s).2
        simp only [Reactor.perform]
        cases surroundings.epollCtl s.outside sock with
        | _ => exact kept.congr rfl rfl
    | perform effect =>
        exact Kept.deeds (s := { s with outside := (surroundings.perform effect s.outside).2.2 })
          (kept.congr rfl rfl) _
    | spawn start => exact kept.spawn start
    | _ => exact kept.congr rfl rfl
  wait s kept := kept.congr rfl rfl
  observe _ _ kept := kept

theorem Kept.process
    {task : TaskId} {fuel : Nat} (kept : Kept s) (owned : (s.frames task).Owned)
    (processed : s.process surroundings fuel task = some next) : Kept next := by
  unfold Reactor.process at processed
  split_ifs at processed with waiting
  · obtain rfl := Option.some.inj processed
    exact kept.settle task .wait
  · split at processed
    · next result frames s' returned =>
        obtain rfl := Option.some.inj processed
        obtain ⟨held, -⟩ := (preserves_kept surroundings task).oneStep kept returned
        exact (held.setFrames task (System.owned_of_oneStep owned returned)).settle task result
    · cases processed
    · obtain rfl := Option.some.inj processed
      exact kept.congr rfl rfl

theorem Kept.moves
    {label : Label User Key Outside} (kept : Kept s) (disciplined : Disciplined s)
    (moves : Moves surroundings s label next) : Kept next := by
  cases moves with
  | poll here =>
      refine kept.congr ?_ (foldl_wake_frames _ _)
      exact (foldl_wake_frame _ _).2
  | complete here possible =>
      refine kept.congr ?_ (foldl_deliver_frames _ _)
      exact (foldl_deliver_frame _ _).2
  | @round task rest fuel next here first processed =>
      have kept' : Kept s.popFront := kept.congr rfl rfl
      have born : task < s.spawned :=
        (current_of_pop disciplined.standing first disciplined.defined here).1.born
      exact kept'.process (kept task born) processed
  | deed deed => exact kept.deed deed
  | _ => exact kept.congr rfl rfl

/-- No coroutine frame is leaked, none is destroyed twice, and no handle in a promise leads to
a frame that is gone: in every reachable state the frames of a task that has been spawned are
those that its own coroutine owns, directly or through the coroutines that it awaits, each of
them with one owner; and a task that is done has its own frame only. -/
theorem frames_accounted
    {outside : Outside} {task : TaskId}
    (reachable : Machine.Reachable (step surroundings) (initial outside) s)
    (born : task < s.spawned) :
    (s.frames task).Accounted ∧
      (s.Done task → ∀ handle, (s.frames task).Live handle ↔ handle = rootHandle) := by
  have preserved : ∀ (s : Reactor User Own Key Outside) label next, Disciplined s ∧ Kept s →
      step surroundings s label = some next → Disciplined next ∧ Kept next :=
    fun s label next held stepped =>
      ⟨(held.1.moves (moves_of_step stepped)).1, held.2.moves held.1 (moves_of_step stepped)⟩
  have unborn : Kept (initial outside : Reactor User Own Key Outside) :=
    fun task born => absurd born (Nat.not_lt_zero task)
  obtain ⟨-, kept⟩ := Machine.invariant_of_reachable preserved
    ⟨disciplined_initial outside, unborn⟩ reachable
  obtain ⟨curr, frame, owners, rests⟩ := kept task born
  exact ⟨rests.accounted, fun ⟨_, finished⟩ _ => rests.accounted.live_of_finishedWith finished⟩

/-- The first task owns the coroutine that it awaits; that of the second one is gone. -/
theorem frames_accounted_delegated :
    ∃ s, Machine.run (step delegating) (initial 0) delegated = some s ∧
      (s.frames 0).Owns rootHandle 1 ∧ (s.frames 0).Accounted ∧
      s.Done 1 ∧ ∀ handle, (s.frames 1).Live handle ↔ handle = rootHandle := by
  obtain ⟨s, ran, spawned, awaits, finished⟩ : ∃ s,
      Machine.run (step delegating) (initial 0) delegated = some s ∧ s.spawned = 2 ∧
        (s.frames 0).Owns rootHandle 1 ∧ s.Done 1 :=
    ⟨_, rfl, rfl, ⟨_, _, rfl, rfl⟩, _, _, rfl, rfl, rfl⟩
  have first : 0 < s.spawned := by simp [spawned]
  have second : 1 < s.spawned := by simp [spawned]
  obtain ⟨accounted, -⟩ := frames_accounted ⟨_, ran⟩ first
  obtain ⟨-, gone⟩ := frames_accounted ⟨_, ran⟩ second
  exact ⟨s, ran, awaits, accounted, finished, gone finished⟩

end Reactor
end Cppio
