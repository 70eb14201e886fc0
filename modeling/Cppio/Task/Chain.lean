import Cppio.Task.Coroutine
import Mathlib.Order.Nat

/-!
# The chain of awaiting coroutines

Between two steps the frames of an unfinished task form a chain: the task's own
coroutine awaits a child, which awaits a child, down to the one that `one_step`
resumes.  An `Outline` says what holds along a run of the coroutines of a task;
`one_step` preserves it, and never does anything undefined.
-/

namespace Cppio

variable {Code Effect Value World : Type} {Reply : Effect → Type}

namespace Frames

/-- The coroutines that await `handle`, from the nearest one outwards, go on
with `nexts`; `outerHandle` is the handle of the nearest one. -/
inductive Awaited (frames : Frames Code Value) :
    Handle → Option Handle → List (Value → Code) → Prop
  | root : Awaited frames rootHandle none []
  | inner {handle outer : Handle} {frame : Frame Code Value} {next : Value → Code}
      {nexts : List (Value → Code)}
      (below : outer < handle)
      (found : frames.frame outer = some frame)
      (linked : frame.innerHandle = some handle)
      (awaits : frame.point = .resumption handle next)
      (rest : Awaited frames outer frame.outerHandle nexts) :
      Awaited frames handle (some outer) (next :: nexts)

/-- The chain outside of a coroutine depends on the older frames only. -/
theorem Awaited.congr
    {frames frames' : Frames Code Value} {handle : Handle} {outerHandle : Option Handle}
    {nexts : List (Value → Code)}
    (awaited : Awaited frames handle outerHandle nexts)
    (same : ∀ other < handle, frames'.frame other = frames.frame other) :
    Awaited frames' handle outerHandle nexts := by
  induction awaited with
  | root => exact .root
  | inner below found linked awaits _ inductionHypothesis =>
      refine .inner below ((same _ below).trans found) linked awaits ?_
      exact inductionHypothesis fun other less => same other (less.trans below)

/-- The chain leads from the task's own coroutine to `handle`. -/
theorem Awaited.leads
    {frames : Frames Code Value} {handle : Handle} {outerHandle : Option Handle}
    {nexts : List (Value → Code)}
    (awaited : Awaited frames handle outerHandle nexts) :
    Relation.ReflTransGen
      (fun outer inner => ∃ frame, frames.frame outer = some frame ∧
        frame.innerHandle = some inner)
      rootHandle handle := by
  induction awaited with
  | root => exact .refl
  | inner _ found linked _ _ inductionHypothesis =>
      exact inductionHypothesis.tail ⟨_, found, linked⟩

/-- `handle` is the inner end of a chain. -/
structure Stacked
    (frames : Frames Code Value) (handle : Handle) (frame : Frame Code Value)
    (nexts : List (Value → Code)) : Prop where
  found : frames.frame handle = some frame
  innermost : frame.innerHandle = none
  awaited : frames.Awaited handle frame.outerHandle nexts
  bound : handle < frames.next

theorem Stacked.isInnermost
    {frames : Frames Code Value} {handle : Handle} {frame : Frame Code Value}
    {nexts : List (Value → Code)}
    (stacked : Stacked frames handle frame nexts)
    (unfinished : frame.point ≠ .final) :
    frames.Innermost handle :=
  ⟨stacked.awaited.leads, frame, stacked.found, stacked.innermost, unfinished⟩

theorem stacked_ofCode (code : Code) :
    (ofCode code : Frames Code Value).Stacked rootHandle (start none code) [] where
  found := by simp [ofCode]
  innermost := rfl
  awaited := .root
  bound := Nat.zero_lt_one

/-- The coroutine at the end of a chain changes its own frame. -/
theorem Stacked.put
    {frames : Frames Code Value} {handle : Handle} {frame : Frame Code Value}
    {nexts : List (Value → Code)}
    (stacked : Stacked frames handle frame nexts)
    {frame' : Frame Code Value}
    (innermost : frame'.innerHandle = none)
    (outer : frame'.outerHandle = frame.outerHandle) :
    (frames.put handle (some frame')).Stacked handle frame' nexts where
  found := by simp
  innermost := innermost
  awaited := by
    rw [outer]
    exact stacked.awaited.congr fun other less => frames.put_frame_of_ne _ less.ne
  bound := stacked.bound

/-- The coroutine at the end of a chain awaits a child. -/
theorem Stacked.await
    {frames : Frames Code Value} {handle : Handle} {frame : Frame Code Value}
    {nexts : List (Value → Code)}
    (stacked : Stacked frames handle frame nexts)
    (child : Code)
    (next : Value → Code) :
    (frames.await handle frame child next).Stacked frames.next (start (some handle) child)
      (next :: nexts) where
  found := by
    change (Frames.put _ handle _).frame frames.next = _
    rw [put_frame_of_ne _ _ stacked.bound.ne', put_frame_self]
  innermost := rfl
  awaited := by
    refine .inner stacked.bound (put_frame_self _ _ _) rfl rfl ?_
    apply stacked.awaited.congr
    intro other less
    change (Frames.put _ handle _).frame other = _
    rw [put_frame_of_ne _ _ less.ne, put_frame_of_ne _ _ (less.trans stacked.bound).ne]
  bound := Nat.lt_succ_self frames.next

/-- The task is suspended at the start of some code, below coroutines that go on
with some continuations. -/
def SuspendedAt
    (frames : Frames Code Value) (holds : List (Value → Code) → Code → Prop) : Prop :=
  ∃ handle frame code nexts, frames.Stacked handle frame nexts ∧
    frame.point = .code code ∧ holds nexts code

theorem suspendedAt_ofCode
    {code : Code} {holds : List (Value → Code) → Code → Prop} (held : holds [] code) :
    (ofCode code : Frames Code Value).SuspendedAt holds :=
  ⟨rootHandle, start none code, code, [], stacked_ofCode code, rfl, held⟩

theorem SuspendedAt.imp
    {frames : Frames Code Value} {holds holds' : List (Value → Code) → Code → Prop}
    (suspended : frames.SuspendedAt holds)
    (weaker : ∀ nexts code, holds nexts code → holds' nexts code) :
    frames.SuspendedAt holds' := by
  obtain ⟨handle, frame, code, nexts, stacked, point, held⟩ := suspended
  exact ⟨handle, frame, code, nexts, stacked, point, weaker nexts code held⟩

/-- The task's own coroutine is in the chain and has not finished. -/
theorem Stacked.root
    {frames : Frames Code Value} {handle : Handle} {frame : Frame Code Value}
    {nexts : List (Value → Code)}
    (stacked : Stacked frames handle frame nexts)
    (unfinished : frame.done = false) :
    ∃ own, frames.frame rootHandle = some own ∧ own.done = false := by
  obtain ⟨found, -, awaited, -⟩ := stacked
  generalize frame.outerHandle = outerHandle at awaited
  induction awaited generalizing frame with
  | root => exact ⟨frame, found, unfinished⟩
  | inner _ foundOuter _ awaits _ inductionHypothesis =>
      exact inductionHypothesis (by simp [Frame.done, awaits]) foundOuter

/-- A suspended task is not finished. -/
theorem SuspendedAt.unfinished
    {frames : Frames Code Value} {holds : List (Value → Code) → Code → Prop}
    (suspended : frames.SuspendedAt holds)
    (value : Value) :
    ¬frames.FinishedWith value := by
  obtain ⟨handle, frame, code, nexts, stacked, point, -⟩ := suspended
  obtain ⟨own, found, unfinished⟩ := stacked.root (by simp [Frame.done, point])
  rintro ⟨own', found', final, -⟩
  obtain rfl := Option.some.inj (found.symm.trans found')
  simp [Frame.done, final] at unfinished

end Frames

/-! ## Outlines -/

/-- What holds while the innermost coroutine runs, with the continuations of
those that await it; where the task was suspended when `one_step` was called;
where `one_step` leaves it suspended; and when the task has finished. -/
structure Outline (system : System Code Effect Value World Reply) where
  Running : List (Value → Code) → Code → World → Prop
  Resting : List (Value → Code) → Code → World → Prop
  Suspended : List (Value → Code) → Code → World → Prop
  Finished : Value → World → Prop
  perform : ∀ {nexts code world effect next}, Running nexts code world →
    system.body code = .perform effect next →
      Running nexts (next (system.perform effect world).1) (system.perform effect world).2
  wait : ∀ {nexts code world next}, Running nexts code world →
    system.body code = .wait next → Running nexts next (system.wait world)
  suspend : ∀ {nexts code world next}, Running nexts code world →
    system.body code = .suspend next → Suspended nexts next world
  await : ∀ {nexts code world child next}, Running nexts code world →
    system.body code = .await child next → Suspended (next :: nexts) child world
  awake : ∀ {nexts code world value next}, Running (next :: nexts) code world →
    system.body code = .ret value → system.state (system.observe (.returned value) world) ≠ .wait
  ret : ∀ {nexts code world value next frames handle}, Running (next :: nexts) code world →
    system.body code = .ret value → frames.Innermost handle →
      Running nexts (next value) (system.observe (.received value)
        (system.observe (.resumed frames handle) (system.observe (.returned value) world)))
  finish : ∀ {code world value}, Running [] code world →
    system.body code = .ret value → Finished value (system.observe (.returned value) world)
  start : ∀ {nexts code world frames handle}, Resting nexts code world →
    system.state world ≠ .wait → frames.Innermost handle →
      Running nexts code (system.observe (.resumed frames handle) world)

namespace Outline

variable {system : System Code Effect Value World Reply} (outline : Outline system)

/-- What the loops of `one_step` leave, and what they return. -/
def Result (result : ScheduleType) (frames : Frames Code Value) (world : World) : Prop :=
  (result = .done ∧ ∃ value, frames.FinishedWith value ∧ outline.Finished value world) ∨
    (result = system.state world ∧
      frames.SuspendedAt fun nexts code => outline.Suspended nexts code world)

/-- What a run of the innermost coroutine leaves. -/
inductive Ran
    (frames : Frames Code Value) (handle : Handle) (frame : Frame Code Value)
    (nexts : List (Value → Code)) (frames' : Frames Code Value) (world' : World) : Prop
  | suspends {own : Frame Code Value}
      (suspended : frames'.SuspendedAt fun nexts code => outline.Suspended nexts code world')
      (found : frames'.frame handle = some own) (unfinished : own.done = false)
  | returned {code : Code} {world : World} {value : Value}
      (running : outline.Running nexts code world)
      (returns : system.body code = .ret value)
      (observed : world' = system.observe (.returned value) world)
      (put : frames' =
        frames.put handle (some { frame with value := some value, point := .final }))

theorem run_ran
    {frames frames' : Frames Code Value} {handle : Handle} {frame : Frame Code Value}
    {nexts : List (Value → Code)} {code : Code} {world world' : World} {fuel : Nat}
    (stacked : frames.Stacked handle frame nexts)
    (running : outline.Running nexts code world)
    (ran : system.run handle frame frames fuel code world = .ok (frames', world')) :
    outline.Ran frames handle frame nexts frames' world' := by
  induction fuel generalizing code world with
  | zero => cases ran
  | succ fuel inductionHypothesis =>
      rw [System.run] at ran
      split at ran
      · next effect next body =>
          exact inductionHypothesis (outline.perform running body) ran
      · next next body => exact inductionHypothesis (outline.wait running body) ran
      · next next body =>
          obtain ⟨rfl, rfl⟩ := Prod.mk.inj (Except.ok.inj ran)
          have held := outline.suspend running body
          exact .suspends ⟨handle, _, next, nexts, stacked.put stacked.innermost rfl, rfl, held⟩
            (Frames.put_frame_self _ _ _) rfl
      · next child next body =>
          obtain ⟨rfl, rfl⟩ := Prod.mk.inj (Except.ok.inj ran)
          have held := outline.await running body
          exact .suspends ⟨_, _, child, _, stacked.await child next, rfl, held⟩
            (Frames.put_frame_self _ _ _) rfl
      · next value body =>
          obtain ⟨rfl, rfl⟩ := Prod.mk.inj (Except.ok.inj ran)
          exact .returned running body rfl rfl

theorem run_ne_undefined
    {frames : Frames Code Value} {handle : Handle} {frame : Frame Code Value}
    {code : Code} {world : World} {fuel : Nat} :
    system.run handle frame frames fuel code world ≠ .error .undefined := by
  induction fuel generalizing code world with
  | zero => simp [System.run]
  | succ fuel inductionHypothesis =>
      rw [System.run]
      split
      · exact inductionHypothesis
      · exact inductionHypothesis
      · simp
      · simp
      · simp

/-- How the loop of `one_step` comes to a coroutine: it was suspended there, or
the child that it awaits has just returned. -/
inductive Enters
    (frames : Frames Code Value) (handle : Handle) (frame : Frame Code Value)
    (nexts : List (Value → Code)) (world : World) : Prop
  | rests {code : Code} (point : frame.point = .code code)
      (resting : outline.Resting nexts code world)
  | resumes {child : Handle} {next : Value → Code} {value : Value}
      (point : frame.point = .resumption child next) (younger : handle < child)
      (returned : (frames.frame child).bind Frame.value = some value)
      (running : ∀ {frames' handle'}, frames'.Innermost handle' →
        outline.Running nexts (next value) (system.observe (.received value)
          (system.observe (.resumed frames' handle') world)))

theorem Enters.unfinished
    {outline : Outline system}
    {frames : Frames Code Value} {handle : Handle} {frame : Frame Code Value}
    {nexts : List (Value → Code)} {world : World}
    (enters : outline.Enters frames handle frame nexts world) :
    frame.done = false ∧ frame.point ≠ .final := by
  cases enters with
  | rests point => simp [Frame.done, point]
  | resumes point => simp [Frame.done, point]

/-- Resuming runs the code of the coroutine, perhaps without the frame of the
child that it awaited. -/
theorem Enters.resume
    {outline : Outline system}
    {frames : Frames Code Value} {handle : Handle} {frame : Frame Code Value}
    {nexts : List (Value → Code)} {world : World}
    (enters : outline.Enters frames handle frame nexts world)
    (stacked : frames.Stacked handle frame nexts)
    (awake : system.state world ≠ .wait) :
    ∃ frames' code world', frames'.Stacked handle frame nexts ∧
      (∀ other ≤ handle, frames'.frame other = frames.frame other) ∧
      outline.Running nexts code world' ∧
      ∀ fuel, system.resume fuel handle frame frames world =
        system.run handle frame frames' fuel code world' := by
  have innermost := stacked.isInnermost enters.unfinished.2
  cases enters with
  | @rests code point resting =>
      refine ⟨frames, code, _, stacked, fun _ _ => rfl, outline.start resting awake innermost,
        fun fuel => ?_⟩
      rw [System.resume, point]
  | @resumes child next value point younger returned running =>
      have older : ∀ other ≤ handle, (frames.put child none).frame other = frames.frame other :=
        fun other most => frames.put_frame_of_ne _ (most.trans_lt younger).ne
      refine ⟨frames.put child none, next value, _, ?_, older, running innermost, fun fuel => ?_⟩
      · exact
          { found := (older handle le_rfl).trans stacked.found
            innermost := stacked.innermost
            awaited := stacked.awaited.congr fun other less => older other less.le
            bound := stacked.bound }
      · simp only [System.resume, point, returned]

/-- After a child has returned, the loop comes to the coroutine that awaits it. -/
theorem Enters.ofReturned
    {frames : Frames Code Value} {handle outer : Handle} {frame frame' : Frame Code Value}
    {next : Value → Code} {nexts : List (Value → Code)} {code : Code} {world : World}
    {value : Value}
    (stacked : frames.Stacked handle frame (next :: nexts))
    (below : outer < handle)
    (awaits : frame'.point = .resumption handle next)
    (rest : frames.Awaited outer frame'.outerHandle nexts)
    (running : outline.Running (next :: nexts) code world)
    (returns : system.body code = .ret value) :
    ∃ frames' : Frames Code Value,
      ((frames.put handle (some { frame with value := some value, point := .final })).put outer
        (some { frame' with innerHandle := none })) = frames' ∧
      frames'.Stacked outer { frame' with innerHandle := none } nexts ∧
      outline.Enters frames' outer { frame' with innerHandle := none } nexts
        (system.observe (.returned value) world) := by
  refine ⟨_, rfl, ?_, ?_⟩
  · exact
      { found := Frames.put_frame_self _ _ _
        innermost := rfl
        awaited := rest.congr fun other less => by
          rw [Frames.put_frame_of_ne _ _ less.ne, Frames.put_frame_of_ne _ _ (less.trans below).ne]
        bound := below.trans stacked.bound }
  · refine .resumes awaits below ?_ fun innermost => outline.ret running returns innermost
    rw [Frames.put_frame_of_ne _ _ below.ne', Frames.put_frame_self]
    rfl

/-- Where a round of the loop of `one_step` ends: the loop returns, or it comes
to the coroutine that awaits this one. -/
inductive Round
    (nexts : List (Value → Code))
    (loop : Nat → Except Stuck (ScheduleType × Frames Code Value × World))
    (ran : Nat → Prop) : Prop
  | leaves {result : ScheduleType} {frames : Frames Code Value} {world : World}
      (left : outline.Result result frames world)
      (returns : ∀ fuel, ran fuel → loop (fuel + 1) = .ok (result, frames, world))
  | unwinds {next : Value → Code} {rest : List (Value → Code)} {outer : Handle}
      {frames : Frames Code Value} {frame : Frame Code Value} {world : World}
      (awaited : nexts = next :: rest)
      (stacked : frames.Stacked outer frame rest)
      (enters : outline.Enters frames outer frame rest world)
      (awake : system.state world ≠ .wait)
      (goesOn : ∀ fuel, ran fuel → loop (fuel + 1) = system.unwind fuel outer frames world)

/-- One round of the loop of `one_step`, from a coroutine that it may resume. -/
theorem unwind_round
    {frames : Frames Code Value} {handle : Handle} {frame : Frame Code Value}
    {nexts : List (Value → Code)} {world : World}
    (stacked : frames.Stacked handle frame nexts)
    (enters : outline.Enters frames handle frame nexts world)
    (awake : system.state world ≠ .wait) :
    ∃ middle code world',
      (∀ fuel, system.run handle frame middle fuel code world' = .error .outOfFuel →
        system.unwind (fuel + 1) handle frames world = .error .outOfFuel) ∧
      ∀ ran enough, system.run handle frame middle enough code world' = .ok ran →
        outline.Round nexts (fun fuel => system.unwind fuel handle frames world)
          fun fuel => system.run handle frame middle fuel code world' = .ok ran := by
  obtain ⟨middle, code, world', stacked', older, running, resumes⟩ :=
    enters.resume stacked awake
  have unfold : ∀ fuel, system.unwind (fuel + 1) handle frames world =
      (system.run handle frame middle fuel code world').bind fun left =>
        system.afterResume (system.unwind fuel) handle left.1 left.2 := by
    intro fuel
    rw [System.unwind, stacked.found]
    dsimp only
    rw [if_neg (by rw [enters.unfinished.1]; decide), if_neg awake, resumes]
  refine ⟨middle, code, world', fun fuel stuck => ?_, ?_⟩
  · rw [unfold, stuck]
    rfl
  · rintro ⟨frames', world''⟩ enough ran
    cases outline.run_ran stacked' running ran with
    | suspends suspended found unfinished =>
        refine .leaves (Or.inr ⟨rfl, suspended⟩) fun fuel ran => ?_
        rw [unfold, ran]
        simp [System.afterResume, Except.bind, found, unfinished]
    | @returned code' worldBefore value running' returns observed put =>
        subst observed put
        have awaited := stacked'.awaited
        cases outerHandle : frame.outerHandle with
        | none =>
            rw [outerHandle] at awaited
            cases awaited
            have finished : (middle.put rootHandle
                (some { frame with value := some value, point := .final })).FinishedWith value :=
              ⟨_, Frames.put_frame_self _ _ _, rfl, rfl⟩
            have left := outline.finish running' returns
            refine .leaves (Or.inl ⟨rfl, value, finished, left⟩) fun fuel ran => ?_
            rw [unfold, ran]
            simp [System.afterResume, Except.bind, Frame.done, outerHandle]
        | some outer =>
            rw [outerHandle] at awaited
            cases awaited with
            | inner below found linked awaits rest =>
                obtain ⟨frames', put, stackedOuter, entersOuter⟩ :=
                  Enters.ofReturned outline stacked' below awaits rest running' returns
                refine .unwinds rfl stackedOuter entersOuter (outline.awake running' returns)
                  fun fuel ran => ?_
                rw [unfold, ran, ← put]
                simp [System.afterResume, Except.bind, Frame.done, outerHandle,
                  Frames.put_frame_of_ne _ _ below.ne, found]

/-- The loop of `one_step`, from a coroutine that it may resume. -/
theorem unwind_result
    {frames : Frames Code Value} {handle : Handle} {frame : Frame Code Value}
    {nexts : List (Value → Code)} {world : World}
    (stacked : frames.Stacked handle frame nexts)
    (enters : outline.Enters frames handle frame nexts world)
    (awake : system.state world ≠ .wait)
    (fuel : Nat) :
    system.unwind fuel handle frames world = .error .outOfFuel ∨
      ∃ result frames' world', system.unwind fuel handle frames world =
        .ok (result, frames', world') ∧ outline.Result result frames' world' := by
  induction fuel generalizing frames handle frame nexts world with
  | zero => exact Or.inl rfl
  | succ fuel inductionHypothesis =>
      obtain ⟨middle, code, world', stuck, round⟩ := outline.unwind_round stacked enters awake
      cases ran : system.run handle frame middle fuel code world' with
      | error reason =>
          cases reason with
          | outOfFuel => exact Or.inl (stuck fuel ran)
          | undefined => exact absurd ran run_ne_undefined
      | ok pair =>
          cases round pair fuel ran with
          | leaves left returns => exact Or.inr ⟨_, _, _, returns fuel ran, left⟩
          | unwinds _ stacked' enters' awake' goesOn =>
              rw [goesOn fuel ran]
              exact inductionHypothesis stacked' enters' awake'

/-- The outer loop of `one_step` walks down the chain. -/
theorem descend_awaited
    {frames : Frames Code Value} {handle : Handle} {outerHandle : Option Handle}
    {nexts : List (Value → Code)}
    (awaited : frames.Awaited handle outerHandle nexts)
    (world : World)
    (fuel : Nat) :
    system.descend fuel rootHandle frames world = .error .outOfFuel ∨
      ∃ left, system.descend fuel rootHandle frames world =
        system.descend left handle frames world := by
  induction awaited with
  | root => exact Or.inr ⟨fuel, rfl⟩
  | inner _ found linked _ _ inductionHypothesis =>
      rcases inductionHypothesis with stuck | ⟨left, walked⟩
      · exact Or.inl stuck
      · cases left with
        | zero => exact Or.inl walked
        | succ left =>
            right
            refine ⟨left, walked.trans ?_⟩
            simp only [System.descend, found, linked]

/-- What `one_step` leaves and returns for a task that does not wait.  With too
little fuel it has no result, but nothing that it does is undefined. -/
theorem oneStep_result
    {frames : Frames Code Value} {world : World}
    (rests : frames.SuspendedAt fun nexts code => outline.Resting nexts code world)
    (awake : system.state world ≠ .wait)
    (fuel : Nat) :
    system.oneStep fuel frames world = .error .outOfFuel ∨
      ∃ result frames' world', system.oneStep fuel frames world =
        .ok (result, frames', world') ∧ outline.Result result frames' world' := by
  obtain ⟨handle, frame, code, nexts, stacked, point, resting⟩ := rests
  rw [System.oneStep, if_neg awake]
  rcases descend_awaited stacked.awaited world fuel with stuck | ⟨left, walked⟩
  · exact Or.inl stuck
  · rw [walked]
    cases left with
    | zero => exact Or.inl rfl
    | succ left =>
        simp only [System.descend, stacked.found, stacked.innermost]
        exact outline.unwind_result stacked (.rests point resting) awake left

/-! ## Enough fuel -/

/-- With enough fuel the computation has one result. -/
def Settles {α : Type} (computation : Nat → Except Stuck α) : Prop :=
  ∃ result enough, ∀ more, computation (enough + more) = .ok result

theorem settles_of_succ
    {α : Type} {computation : Nat → Except Stuck α} {result : α} {enough : Nat}
    (returns : ∀ more, computation (enough + more + 1) = .ok result) :
    Settles computation := by
  refine ⟨result, enough + 1, fun more => ?_⟩
  rw [Nat.add_right_comm]
  exact returns more

/-- The computation returns at once. -/
theorem settles_of_forall
    {α : Type} {computation : Nat → Except Stuck α} {result : α}
    (returns : ∀ fuel, computation (fuel + 1) = .ok result) :
    Settles computation :=
  ⟨result, 1, fun more => by rw [Nat.add_comm]; exact returns more⟩

/-- The computation goes on as one that settles. -/
theorem Settles.succ
    {α : Type} {computation later : Nat → Except Stuck α}
    (settles : Settles later)
    (goesOn : ∀ fuel, computation (fuel + 1) = later fuel) :
    Settles computation := by
  obtain ⟨result, enough, returns⟩ := settles
  exact settles_of_succ fun more => (goesOn _).trans (returns more)

/-- The code of the coroutines never runs on for ever between two suspensions. -/
def RunsEnd (system : System Code Effect Value World Reply) : Prop :=
  ∀ handle frame frames code world,
    Settles fun fuel => system.run handle frame frames fuel code world

theorem unwind_settles
    (runsEnd : RunsEnd system)
    {frames : Frames Code Value} {handle : Handle} {frame : Frame Code Value}
    {nexts : List (Value → Code)} {world : World}
    (stacked : frames.Stacked handle frame nexts)
    (enters : outline.Enters frames handle frame nexts world)
    (awake : system.state world ≠ .wait) :
    Settles fun fuel => system.unwind fuel handle frames world := by
  induction nexts generalizing frames handle frame world with
  | nil =>
      obtain ⟨middle, code, world', -, round⟩ := outline.unwind_round stacked enters awake
      obtain ⟨ran, enough, ends⟩ := runsEnd handle frame middle code world'
      cases round ran enough (ends 0) with
      | leaves _ returns => exact settles_of_succ fun more => returns _ (ends more)
      | unwinds awaited => cases awaited
  | cons next nexts inductionHypothesis =>
      obtain ⟨middle, code, world', -, round⟩ := outline.unwind_round stacked enters awake
      obtain ⟨ran, enough, ends⟩ := runsEnd handle frame middle code world'
      cases round ran enough (ends 0) with
      | leaves _ returns => exact settles_of_succ fun more => returns _ (ends more)
      | unwinds awaited stacked' enters' awake' goesOn =>
          obtain ⟨rfl, rfl⟩ := List.cons.inj awaited
          obtain ⟨result, outerEnough, settles⟩ := inductionHypothesis stacked' enters' awake'
          have returns : ∀ more, system.unwind (enough + outerEnough + more + 1) handle frames
              world = .ok result := by
            intro more
            rw [Nat.add_assoc enough]
            apply (goesOn _ (ends _)).trans
            rw [Nat.add_left_comm]
            exact settles (enough + more)
          exact settles_of_succ returns

/-- With more fuel the outer loop of `one_step` reaches the end of the chain. -/
theorem descend_reaches
    {frames : Frames Code Value} {handle : Handle} {outerHandle : Option Handle}
    {nexts : List (Value → Code)}
    (awaited : frames.Awaited handle outerHandle nexts)
    (world : World) :
    ∃ extra, ∀ fuel, system.descend (extra + fuel) rootHandle frames world =
      system.descend fuel handle frames world := by
  induction awaited with
  | root => exact ⟨0, fun fuel => by rw [Nat.zero_add]⟩
  | inner _ found linked _ _ inductionHypothesis =>
      obtain ⟨extra, walked⟩ := inductionHypothesis
      refine ⟨extra + 1, fun fuel => ?_⟩
      rw [Nat.add_assoc, Nat.add_comm 1, walked]
      simp only [System.descend, found, linked]

/-- `one_step` returns, where the code of the coroutines does not run on. -/
theorem oneStep_settles
    (runsEnd : RunsEnd system)
    {frames : Frames Code Value} {world : World}
    (rests : frames.SuspendedAt fun nexts code => outline.Resting nexts code world)
    (awake : system.state world ≠ .wait) :
    Settles fun fuel => system.oneStep fuel frames world := by
  obtain ⟨handle, frame, code, nexts, stacked, point, resting⟩ := rests
  obtain ⟨result, enough, settles⟩ :=
    outline.unwind_settles runsEnd stacked (.rests point resting) awake
  obtain ⟨extra, walked⟩ : ∃ extra, ∀ fuel,
      system.descend (extra + fuel) rootHandle frames world =
        system.descend fuel handle frames world := descend_reaches stacked.awaited world
  refine ⟨result, extra + (enough + 1), fun more => ?_⟩
  change system.oneStep (extra + (enough + 1) + more) frames world = _
  rw [System.oneStep, if_neg awake, Nat.add_assoc, walked, Nat.add_right_comm]
  simp only [System.descend, stacked.found, stacked.innermost]
  exact settles more

end Outline

end Cppio
