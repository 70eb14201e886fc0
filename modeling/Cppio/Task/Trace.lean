import Cppio.Task.Coroutine

/-!
# What a coroutine does

The runs of one coroutine that awaits no other, as the list of what happens on
them: the effects with their outcomes, `wait()`, and the suspensions.  An outcome
is what an effect did; the code sees only the reply, which may be less.  A run
ends where the coroutine returns or stays suspended.
-/

namespace Cppio

variable {Code Effect Value : Type} {Reply Outcome : Effect → Type}

/-- What happens on a run. -/
inductive Occurrence (Outcome : Effect → Type) : Type
  | performed (effect : Effect) (outcome : Outcome effect)
  | waited
  | suspended

/-- The runs of the code with what happens on them, up to where the coroutine
has returned a value or is suspended. -/
inductive Runs
    (body : Code → Instr Code Effect Value Reply)
    (reply : ∀ effect, Outcome effect → Reply effect) :
    Code → List (Occurrence Outcome) → Option Value → Prop
  | ret {code : Code} {value : Value}
      (returns : body code = .ret value) :
      Runs body reply code [] (some value)
  | rest {code next : Code}
      (suspends : body code = .suspend next) :
      Runs body reply code [.suspended] none
  | perform {code : Code} {effect : Effect} {next : Reply effect → Code}
      {outcome : Outcome effect} {events : List (Occurrence Outcome)} {last : Option Value}
      (performs : body code = .perform effect next)
      (run : Runs body reply (next (reply effect outcome)) events last) :
      Runs body reply code (.performed effect outcome :: events) last
  | wait {code next : Code} {events : List (Occurrence Outcome)} {last : Option Value}
      (waits : body code = .wait next)
      (run : Runs body reply next events last) :
      Runs body reply code (.waited :: events) last
  | resume {code next : Code} {events : List (Occurrence Outcome)} {last : Option Value}
      (suspends : body code = .suspend next)
      (run : Runs body reply next events last) :
      Runs body reply code (.suspended :: events) last

namespace Runs

variable {body : Code → Instr Code Effect Value Reply}
variable {reply : ∀ effect, Outcome effect → Reply effect}
variable {code : Code} {events : List (Occurrence Outcome)} {last : Option Value}

theorem of_ret
    {value : Value}
    (run : Runs body reply code events last)
    (returns : body code = .ret value) :
    events = [] ∧ last = some value := by
  cases run with
  | ret returns' =>
      cases returns.symm.trans returns'
      exact ⟨rfl, rfl⟩
  | rest suspends => cases returns.symm.trans suspends
  | perform performs => cases returns.symm.trans performs
  | wait waits => cases returns.symm.trans waits
  | resume suspends => cases returns.symm.trans suspends

theorem of_perform
    {effect : Effect} {next : Reply effect → Code}
    (run : Runs body reply code events last)
    (performs : body code = .perform effect next) :
    ∃ outcome rest, events = .performed effect outcome :: rest ∧
      Runs body reply (next (reply effect outcome)) rest last := by
  cases run with
  | ret returns => cases performs.symm.trans returns
  | rest suspends => cases performs.symm.trans suspends
  | perform performs' run =>
      cases performs.symm.trans performs'
      exact ⟨_, _, rfl, run⟩
  | wait waits => cases performs.symm.trans waits
  | resume suspends => cases performs.symm.trans suspends

theorem of_wait
    {next : Code}
    (run : Runs body reply code events last)
    (waits : body code = .wait next) :
    ∃ rest, events = .waited :: rest ∧ Runs body reply next rest last := by
  cases run with
  | ret returns => cases waits.symm.trans returns
  | rest suspends => cases waits.symm.trans suspends
  | perform performs => cases waits.symm.trans performs
  | wait waits' run =>
      cases waits.symm.trans waits'
      exact ⟨_, rfl, run⟩
  | resume suspends => cases waits.symm.trans suspends

theorem of_suspend
    {next : Code}
    (run : Runs body reply code events last)
    (suspends : body code = .suspend next) :
    ∃ rest, events = .suspended :: rest ∧
      (rest = [] ∧ last = none ∨ Runs body reply next rest last) := by
  cases run with
  | ret returns => cases suspends.symm.trans returns
  | rest _ => exact ⟨[], rfl, Or.inl ⟨rfl, rfl⟩⟩
  | perform performs => cases suspends.symm.trans performs
  | wait waits => cases suspends.symm.trans waits
  | resume suspends' run =>
      cases suspends.symm.trans suspends'
      exact ⟨_, rfl, Or.inr run⟩

/-- What comes later on a run is a run of its own. -/
theorem of_append
    {before : List (Occurrence Outcome)} {occurrence : Occurrence Outcome}
    (run : Runs body reply code (before ++ occurrence :: events) last) :
    ∃ later, Runs body reply later (occurrence :: events) last := by
  induction before generalizing code with
  | nil => exact ⟨code, run⟩
  | cons first before inductionHypothesis =>
      rw [List.cons_append] at run
      cases rest : before ++ occurrence :: events with
      | nil => exact absurd rest (by simp)
      | cons second rest' =>
          rw [rest] at run inductionHypothesis
          cases run with
          | perform _ run => exact inductionHypothesis run
          | wait _ run => exact inductionHypothesis run
          | resume _ run => exact inductionHypothesis run

end Runs

end Cppio
