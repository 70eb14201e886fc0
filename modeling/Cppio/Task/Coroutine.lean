import Cppio.Task.Parking
import Mathlib.Logic.Function.Basic
import Mathlib.Logic.Relation

/-!
# Coroutines and `one_step`

The frames of a task's coroutines, linked by the handles in their promises, and
the walk of `one_step` along these handles.  What the code of a coroutine does,
and the world it acts on, are parameters.  Loops take fuel; using a frame that
is not there, resuming a finished coroutine or reading a value that was not
returned is undefined.
-/

namespace Cppio

/-- `std::coroutine_handle`. -/
abbrev Handle := Nat

/-- The handle of a task's own coroutine. -/
def rootHandle : Handle := 0

/-- What the code of a coroutine does next. -/
inductive Instr (Code Effect Value : Type) (Reply : Effect → Type)
  /-- An effect that does not suspend. -/
  | perform (effect : Effect) (next : Reply effect → Code)
  /-- `basic_task::wait()` on the current task. -/
  | wait (next : Code)
  /-- `co_await std::suspend_always{}`. -/
  | suspend (next : Code)
  /-- `co_await` of a fresh `task`. -/
  | await (child : Code) (next : Value → Code)
  /-- `co_return`. -/
  | ret (value : Value)

/-- Where a suspended coroutine goes on. -/
inductive Point (Code Value : Type)
  | code (code : Code)
  /-- In the `await_resume` of the child's task. -/
  | resumption (child : Handle) (next : Value → Code)
  | final

/-- A coroutine frame with its promise. -/
structure Frame (Code Value : Type) where
  /-- `m_inner_handle`. -/
  innerHandle : Option Handle
  /-- `m_outer_handle`. -/
  outerHandle : Option Handle
  /-- `m_value`. -/
  value : Option Value
  point : Point Code Value

/-- `done()`. -/
def Frame.done {Code Value : Type} (frame : Frame Code Value) : Bool :=
  match frame.point with
  | .final => true
  | _ => false

/-- The promise after `m_inner_handle = nullptr`. -/
def Frame.resumable {Code Value : Type} (frame : Frame Code Value) : Frame Code Value :=
  { frame with innerHandle := none }

/-- The frames of a task. -/
structure Frames (Code Value : Type) where
  next : Handle
  frame : Handle → Option (Frame Code Value)

namespace Frames

variable {Code Value : Type}

/-- The frame of a coroutine that has not started. -/
def start (outerHandle : Option Handle) (code : Code) : Frame Code Value where
  innerHandle := none
  outerHandle := outerHandle
  value := none
  point := .code code

/-- The frames of a task that has not started. -/
def ofCode (code : Code) : Frames Code Value where
  next := 1
  frame := Function.update (fun _ => none) rootHandle (some (start none code))

def put (frames : Frames Code Value) (handle : Handle) (frame : Option (Frame Code Value)) :
    Frames Code Value :=
  { frames with frame := Function.update frames.frame handle frame }

@[simp] theorem put_frame_self
    (frames : Frames Code Value) (handle : Handle) (frame : Option (Frame Code Value)) :
    (frames.put handle frame).frame handle = frame := by
  simp [put]

theorem put_frame_of_ne
    (frames : Frames Code Value) {handle other : Handle} (frame : Option (Frame Code Value))
    (different : other ≠ handle) :
    (frames.put handle frame).frame other = frames.frame other := by
  simp [put, different]

/-- `task::await_suspend`, with the frame of the child made before it. -/
def await
    (frames : Frames Code Value)
    (handle : Handle)
    (frame : Frame Code Value)
    (child : Code)
    (next : Value → Code) : Frames Code Value where
  next := frames.next + 1
  frame := (((frames.put frames.next (some (start (some handle) child))).put handle
    (some { frame with
      innerHandle := some frames.next
      point := .resumption frames.next next }))).frame

/-- The task's own coroutine has finished with the value. -/
def FinishedWith (frames : Frames Code Value) (value : Value) : Prop :=
  ∃ frame, frames.frame rootHandle = some frame ∧ frame.point = .final ∧
    frame.value = some value

/-- The coroutine `curr` has returned to `outer`, which awaits it. -/
structure ReturnedTo
    (frames : Frames Code Value) (curr outer : Handle) (awaiting : Frame Code Value) : Prop where
  returned : ∃ frame, frames.frame curr = some frame ∧ frame.done = true ∧
    frame.outerHandle = some outer
  found : frames.frame outer = some awaiting
  unfinished : awaiting.done = false

/-- The coroutine that the handles in the promises lead to from the task's own
one, and that has not finished. -/
def Innermost (frames : Frames Code Value) (handle : Handle) : Prop :=
  Relation.ReflTransGen
      (fun outer inner => ∃ frame, frames.frame outer = some frame ∧
        frame.innerHandle = some inner)
      rootHandle handle ∧
    ∃ frame, frames.frame handle = some frame ∧ frame.innerHandle = none ∧
      frame.point ≠ .final

end Frames

/-- Why a computation has no result. -/
inductive Stuck
  | outOfFuel
  | undefined
  deriving DecidableEq

/-- What can be watched of the coroutines of a task. -/
inductive Event (Code Value : Type)
  | resumed (frames : Frames Code Value) (handle : Handle)
  | received (value : Value)
  | returned (value : Value)

/-- The code of the coroutines, and the world it acts on. -/
structure System (Code Effect Value World : Type) (Reply : Effect → Type) where
  body : Code → Instr Code Effect Value Reply
  perform : (effect : Effect) → World → Reply effect × World
  /-- `m_state` of the task. -/
  state : World → ScheduleType
  /-- `basic_task::wait()`. -/
  wait : World → World
  observe : Event Code Value → World → World

namespace System

variable {Code Effect Value World : Type} {Reply : Effect → Type}
variable (system : System Code Effect Value World Reply)

/-- A coroutine, up to where it suspends or finishes. -/
def run
    (handle : Handle)
    (frame : Frame Code Value)
    (frames : Frames Code Value) :
    Nat → Code → World → Except Stuck (Frames Code Value × World)
  | 0, _, _ => .error .outOfFuel
  | fuel + 1, code, world =>
      match system.body code with
      | .perform effect next =>
          run handle frame frames fuel (next (system.perform effect world).1)
            (system.perform effect world).2
      | .wait next => run handle frame frames fuel next (system.wait world)
      | .suspend next =>
          .ok (frames.put handle (some { frame with point := .code next }), world)
      | .await child next => .ok (frames.await handle frame child next, world)
      | .ret value =>
          .ok (frames.put handle (some { frame with value := some value, point := .final }),
            system.observe (.returned value) world)

/-- `curr.resume()`.  The task of an awaited child is destroyed once its value
is taken. -/
def resume
    (fuel : Nat)
    (handle : Handle)
    (frame : Frame Code Value)
    (frames : Frames Code Value)
    (world : World) : Except Stuck (Frames Code Value × World) :=
  let world := system.observe (.resumed frames handle) world
  match frame.point with
  | .final => .error .undefined
  | .code code => system.run handle frame frames fuel code world
  | .resumption child next =>
      match (frames.frame child).bind Frame.value with
      | none => .error .undefined
      | some value =>
          system.run handle frame (frames.put child none) fuel (next value)
            (system.observe (.received value) world)

/-- What the inner loop of `one_step` does after `curr.resume()`; `again` is the
loop from the coroutine that awaits this one. -/
def afterResume
    (again : Handle → Frames Code Value → World →
      Except Stuck (ScheduleType × Frames Code Value × World))
    (curr : Handle)
    (frames : Frames Code Value)
    (world : World) : Except Stuck (ScheduleType × Frames Code Value × World) :=
  match frames.frame curr with
  | none => .error .undefined
  | some frame =>
      if ¬frame.done then .ok (system.state world, frames, world)
      else
        match frame.outerHandle with
        | none => .ok (.done, frames, world)
        | some outer =>
            match frames.frame outer with
            | none => .error .undefined
            | some frame =>
                again outer (frames.put outer (some { frame with innerHandle := none })) world

/-- The inner loop of `one_step`, and what follows it. -/
def unwind : Nat → Handle → Frames Code Value → World →
    Except Stuck (ScheduleType × Frames Code Value × World)
  | 0, _, _, _ => .error .outOfFuel
  | fuel + 1, curr, frames, world =>
      match frames.frame curr with
      | none => .error .undefined
      | some frame =>
          if frame.done then .ok (.done, frames, world)
          else if system.state world = .wait then .ok (system.state world, frames, world)
          else
            (system.resume fuel curr frame frames world).bind fun left =>
              system.afterResume (unwind fuel) curr left.1 left.2

/-- The outer loop of `one_step`. -/
def descend : Nat → Handle → Frames Code Value → World →
    Except Stuck (ScheduleType × Frames Code Value × World)
  | 0, _, _, _ => .error .outOfFuel
  | fuel + 1, curr, frames, world =>
      match frames.frame curr with
      | none => .error .undefined
      | some frame =>
          match frame.innerHandle with
          | none => system.unwind fuel curr frames world
          | some inner => descend fuel inner frames world

/-- `basic_task::one_step`, which asserts that the task does not wait. -/
def oneStep (fuel : Nat) (frames : Frames Code Value) (world : World) :
    Except Stuck (ScheduleType × Frames Code Value × World) :=
  if system.state world = .wait then .error .undefined
  else system.descend fuel rootHandle frames world

/-- When a coroutine has returned to another, `one_step` resumes that one, unless the
task is marked `kWait`. -/
theorem afterResume_returned
    {frames : Frames Code Value} {curr outer : Handle} {awaiting : Frame Code Value}
    (returnedTo : frames.ReturnedTo curr outer awaiting)
    (fuel : Nat)
    (world : World) :
    let frames' := frames.put outer (some awaiting.resumable)
    system.afterResume (system.unwind (fuel + 1)) curr frames world =
      if system.state world = .wait then .ok (.wait, frames', world)
      else (system.resume fuel outer awaiting.resumable frames' world).bind fun left =>
        system.afterResume (system.unwind fuel) outer left.1 left.2 := by
  intro frames'
  obtain ⟨own, foundOwn, returned, linked⟩ := returnedTo.returned
  have unfinished : awaiting.resumable.done = false := returnedTo.unfinished
  have goesOn : system.afterResume (system.unwind (fuel + 1)) curr frames world =
      system.unwind (fuel + 1) outer frames' world := by
    simp only [afterResume, foundOwn, returned, linked, returnedTo.found, not_true_eq_false,
      if_false]
    rfl
  have found : frames'.frame outer = some awaiting.resumable := frames.put_frame_self _ _
  rw [goesOn, unwind]
  simp only [found, unfinished, Bool.false_eq_true, if_false]
  split_ifs with waiting
  · rw [waiting]
  · rfl

end System

end Cppio
