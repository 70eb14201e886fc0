import Cppio.Task.Coroutine

/-!
# What `one_step` does to the world

Whatever the effects of the coroutines, `wait()` and the observations preserve, a
call of `one_step` preserves, on any frames.  Its result is `kDone` or the
`m_state` of the task when it returns.
-/

namespace Cppio
namespace System

variable {Code Effect Value World : Type} {Reply : Effect → Type}

/-- Nothing that a coroutine does takes the property away from the world. -/
structure Preserves
    (system : System Code Effect Value World Reply) (holds : World → Prop) : Prop where
  perform : ∀ effect world, holds world → holds (system.perform effect world).2
  wait : ∀ world, holds world → holds (system.wait world)
  observe : ∀ event world, holds world → holds (system.observe event world)

namespace Preserves

variable {system : System Code Effect Value World Reply} {holds : World → Prop}
variable {frames frames' : Frames Code Value} {handle : Handle} {world world' : World}
variable {fuel : Nat} {result : ScheduleType}

theorem run
    (preserves : system.Preserves holds)
    {frame : Frame Code Value} {code : Code}
    (held : holds world)
    (ran : system.run handle frame frames fuel code world = .ok (frames', world')) :
    holds world' := by
  induction fuel generalizing code world with
  | zero => cases ran
  | succ fuel inductionHypothesis =>
      rw [System.run] at ran
      split at ran
      · exact inductionHypothesis (preserves.perform _ _ held) ran
      · exact inductionHypothesis (preserves.wait _ held) ran
      · obtain ⟨-, rfl⟩ := Prod.mk.inj (Except.ok.inj ran)
        exact held
      · obtain ⟨-, rfl⟩ := Prod.mk.inj (Except.ok.inj ran)
        exact held
      · obtain ⟨-, rfl⟩ := Prod.mk.inj (Except.ok.inj ran)
        exact preserves.observe _ _ held

theorem resume
    (preserves : system.Preserves holds)
    {frame : Frame Code Value}
    (held : holds world)
    (resumed : system.resume fuel handle frame frames world = .ok (frames', world')) :
    holds world' := by
  have observed := preserves.observe (.resumed frames handle) world held
  unfold System.resume at resumed
  split at resumed
  · cases resumed
  · exact preserves.run observed resumed
  · split at resumed
    · cases resumed
    · exact preserves.run (preserves.observe _ _ observed) resumed

/-- The loop of `one_step` goes on after a coroutine, or it returns. -/
theorem afterResume
    {again : Handle → Frames Code Value → World →
      Except Stuck (ScheduleType × Frames Code Value × World)}
    (goesOn : ∀ (outer : Handle) (frames : Frames Code Value),
      again outer frames world = .ok (result, frames', world') →
        holds world' ∧ (result = .done ∨ result = system.state world'))
    (held : holds world)
    (returned : system.afterResume again handle frames world = .ok (result, frames', world')) :
    holds world' ∧ (result = .done ∨ result = system.state world') := by
  unfold System.afterResume at returned
  split at returned
  · cases returned
  · next frame _ =>
      by_cases finished : frame.done = true
      · rw [if_neg (not_not_intro finished)] at returned
        split at returned
        · obtain ⟨rfl, same⟩ := Prod.mk.inj (Except.ok.inj returned)
          obtain ⟨-, rfl⟩ := Prod.mk.inj same
          exact ⟨held, Or.inl rfl⟩
        · split at returned
          · cases returned
          · exact goesOn _ _ returned
      · rw [if_pos finished] at returned
        obtain ⟨rfl, same⟩ := Prod.mk.inj (Except.ok.inj returned)
        obtain ⟨-, rfl⟩ := Prod.mk.inj same
        exact ⟨held, Or.inr rfl⟩

theorem unwind
    (preserves : system.Preserves holds)
    (held : holds world)
    (unwound : system.unwind fuel handle frames world = .ok (result, frames', world')) :
    holds world' ∧ (result = .done ∨ result = system.state world') := by
  induction fuel generalizing handle frames world with
  | zero => cases unwound
  | succ fuel inductionHypothesis =>
      rw [System.unwind] at unwound
      split at unwound
      · cases unwound
      · next frame _ =>
          split_ifs at unwound
          · obtain ⟨rfl, same⟩ := Prod.mk.inj (Except.ok.inj unwound)
            obtain ⟨-, rfl⟩ := Prod.mk.inj same
            exact ⟨held, Or.inl rfl⟩
          · obtain ⟨rfl, same⟩ := Prod.mk.inj (Except.ok.inj unwound)
            obtain ⟨-, rfl⟩ := Prod.mk.inj same
            exact ⟨held, Or.inr rfl⟩
          · cases resumed : system.resume fuel handle frame frames world with
            | error stuck =>
                rw [resumed] at unwound
                cases unwound
            | ok left =>
                have heldLeft := preserves.resume held resumed
                rw [resumed] at unwound
                have goesOn : ∀ outer later,
                    system.unwind fuel outer later left.2 = .ok (result, frames', world') →
                      holds world' ∧ (result = .done ∨ result = system.state world') :=
                  fun outer later again => inductionHypothesis heldLeft again
                exact afterResume goesOn heldLeft unwound

theorem descend
    (preserves : system.Preserves holds)
    (held : holds world)
    (descended : system.descend fuel handle frames world = .ok (result, frames', world')) :
    holds world' ∧ (result = .done ∨ result = system.state world') := by
  induction fuel generalizing handle with
  | zero => cases descended
  | succ fuel inductionHypothesis =>
      rw [System.descend] at descended
      split at descended
      · cases descended
      · split at descended
        · exact preserves.unwind held descended
        · exact inductionHypothesis descended

/-- A call of `one_step` that returns. -/
theorem oneStep
    (preserves : system.Preserves holds)
    (held : holds world)
    (returned : system.oneStep fuel frames world = .ok (result, frames', world')) :
    holds world' ∧ (result = .done ∨ result = system.state world') := by
  unfold System.oneStep at returned
  split_ifs at returned
  exact preserves.descend held returned

end Preserves

end System
end Cppio
