import Cppio.Task.Coroutine

/-!
# Two worlds of the same coroutines

Where the world of one system is a view of the world of another, and both answer
every effect alike, a call of `one_step` in the one is the view of the call in the
other.
-/

namespace Cppio
namespace System

variable {Code Effect Value World World' : Type} {Reply : Effect → Type}

/-- The first system is what the second looks like through the view. -/
structure Views
    (system : System Code Effect Value World Reply)
    (system' : System Code Effect Value World' Reply)
    (view : World' → World) : Prop where
  body : system.body = system'.body
  perform : ∀ effect world, system.perform effect (view world) =
    ((system'.perform effect world).1, view (system'.perform effect world).2)
  state : ∀ world, system.state (view world) = system'.state world
  wait : ∀ world, system.wait (view world) = view (system'.wait world)
  observe : ∀ event world, system.observe event (view world) = view (system'.observe event world)

namespace Views

variable {system : System Code Effect Value World Reply}
variable {system' : System Code Effect Value World' Reply} {view : World' → World}

/-- What a coroutine leaves, with the view of the world. -/
def left (view : World' → World) (left : Frames Code Value × World') :
    Frames Code Value × World :=
  (left.1, view left.2)

/-- What `one_step` leaves, with the view of the world. -/
def result (view : World' → World) (result : ScheduleType × Frames Code Value × World') :
    ScheduleType × Frames Code Value × World :=
  (result.1, result.2.1, view result.2.2)

theorem run
    (views : system.Views system' view)
    (handle : Handle) (frame : Frame Code Value) (frames : Frames Code Value)
    (fuel : Nat) (code : Code) (world : World') :
    system.run handle frame frames fuel code (view world) =
      (system'.run handle frame frames fuel code world).map (left view) := by
  induction fuel generalizing code world with
  | zero => rfl
  | succ fuel inductionHypothesis =>
      rw [System.run, System.run, views.body]
      cases system'.body code with
      | perform effect next =>
          dsimp only
          rw [views.perform]
          exact inductionHypothesis _ _
      | wait next =>
          dsimp only
          rw [views.wait]
          exact inductionHypothesis _ _
      | suspend next => rfl
      | await child next => rfl
      | ret value =>
          dsimp only
          rw [views.observe]
          rfl

theorem resume
    (views : system.Views system' view)
    (fuel : Nat) (handle : Handle) (frame : Frame Code Value) (frames : Frames Code Value)
    (world : World') :
    system.resume fuel handle frame frames (view world) =
      (system'.resume fuel handle frame frames world).map (left view) := by
  unfold System.resume
  dsimp only
  rw [views.observe]
  cases frame.point with
  | code code => exact views.run handle frame frames fuel code _
  | final => rfl
  | resumption child next =>
      dsimp only
      cases (frames.frame child).bind Frame.value with
      | none => rfl
      | some value =>
          dsimp only
          rw [views.observe]
          exact views.run handle frame _ fuel _ _

theorem afterResume
    (views : system.Views system' view)
    {again : Handle → Frames Code Value → World →
      Except Stuck (ScheduleType × Frames Code Value × World)}
    {again' : Handle → Frames Code Value → World' →
      Except Stuck (ScheduleType × Frames Code Value × World')}
    (goesOn : ∀ outer frames world, again outer frames (view world) =
      (again' outer frames world).map (result view))
    (handle : Handle) (frames : Frames Code Value) (world : World') :
    system.afterResume again handle frames (view world) =
      (system'.afterResume again' handle frames world).map (result view) := by
  unfold System.afterResume
  cases frames.frame handle with
  | none => rfl
  | some own =>
      dsimp only
      rw [views.state]
      by_cases suspended : ¬own.done = true
      · rw [if_pos suspended, if_pos suspended]
        rfl
      · rw [if_neg suspended, if_neg suspended]
        cases own.outerHandle with
        | none => rfl
        | some outer =>
            dsimp only
            cases frames.frame outer with
            | none => rfl
            | some awaiting => exact goesOn _ _ _

theorem unwind
    (views : system.Views system' view)
    (fuel : Nat) (handle : Handle) (frames : Frames Code Value) (world : World') :
    system.unwind fuel handle frames (view world) =
      (system'.unwind fuel handle frames world).map (result view) := by
  induction fuel generalizing handle frames world with
  | zero => rfl
  | succ fuel inductionHypothesis =>
      rw [System.unwind, System.unwind]
      cases frames.frame handle with
      | none => rfl
      | some frame =>
          dsimp only
          rw [views.state, views.resume]
          split_ifs
          · rfl
          · rfl
          · cases system'.resume fuel handle frame frames world with
            | error stuck => rfl
            | ok after => exact views.afterResume inductionHypothesis handle after.1 after.2

theorem descend
    (views : system.Views system' view)
    (fuel : Nat) (handle : Handle) (frames : Frames Code Value) (world : World') :
    system.descend fuel handle frames (view world) =
      (system'.descend fuel handle frames world).map (result view) := by
  induction fuel generalizing handle with
  | zero => rfl
  | succ fuel inductionHypothesis =>
      rw [System.descend, System.descend]
      cases frames.frame handle with
      | none => rfl
      | some frame =>
          dsimp only
          cases frame.innerHandle with
          | none => exact views.unwind fuel handle frames world
          | some inner => exact inductionHypothesis inner

/-- A call of `one_step` in the view is the view of the call. -/
theorem oneStep
    (views : system.Views system' view)
    (fuel : Nat) (frames : Frames Code Value) (world : World') :
    system.oneStep fuel frames (view world) =
      (system'.oneStep fuel frames world).map (result view) := by
  unfold System.oneStep
  rw [views.state]
  split_ifs
  · rfl
  · exact views.descend fuel rootHandle frames world

end Views

end System
end Cppio
