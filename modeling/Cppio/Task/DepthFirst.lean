import Cppio.Task.Execution

/-!
# Runs, depth first

The runs of a coroutine where an await is a whole run of the child, and then the rest
with the value that the child returns.  They are the runs in which every coroutine
keeps those that await it.
-/

namespace Cppio

variable {Code Effect Value : Type} {Reply Outcome : Effect → Type}

/-- The runs of the code with those of the children that it awaits, up to where it has
returned a value or the task is suspended; with `partly` also up to anywhere. -/
inductive DepthFirst
    (partly : Prop)
    (body : Code → Instr Code Effect Value Reply)
    (reply : ∀ effect, Outcome effect → Reply effect) :
    Code → List (Occurrence Outcome) → Option Value → Prop
  | ret {code : Code} {value : Value}
      (returns : body code = .ret value) :
      DepthFirst partly body reply code [] (some value)
  | stops {code : Code}
      (stops : partly) :
      DepthFirst partly body reply code [] none
  | handOver {code child : Code} {next : Value → Code}
      (awaits : body code = .await child next) :
      DepthFirst partly body reply code [] none
  | inside {code child : Code} {next : Value → Code} {events : List (Occurrence Outcome)}
      (awaits : body code = .await child next)
      (run : DepthFirst partly body reply child events none) :
      DepthFirst partly body reply code events none
  | await {code child : Code} {next : Value → Code} {value : Value}
      {events later : List (Occurrence Outcome)} {last : Option Value}
      (awaits : body code = .await child next)
      (run : DepthFirst partly body reply child events (some value))
      (rest : DepthFirst partly body reply (next value) later last) :
      DepthFirst partly body reply code (events ++ later) last
  | perform {code : Code} {effect : Effect} {next : Reply effect → Code}
      {outcome : Outcome effect} {events : List (Occurrence Outcome)} {last : Option Value}
      (performs : body code = .perform effect next)
      (run : DepthFirst partly body reply (next (reply effect outcome)) events last) :
      DepthFirst partly body reply code (.performed effect outcome :: events) last
  | wait {code next : Code} {events : List (Occurrence Outcome)} {last : Option Value}
      (waits : body code = .wait next)
      (run : DepthFirst partly body reply next events last) :
      DepthFirst partly body reply code (.waited :: events) last
  | rest {code next : Code}
      (suspends : body code = .suspend next) :
      DepthFirst partly body reply code [.suspended] none
  | resume {code next : Code} {events : List (Occurrence Outcome)} {last : Option Value}
      (suspends : body code = .suspend next)
      (run : DepthFirst partly body reply next events last) :
      DepthFirst partly body reply code (.suspended :: events) last

variable {body : Code → Instr Code Effect Value Reply}
variable {reply : ∀ effect, Outcome effect → Reply effect}
variable {nexts : List (Value → Code)} {code : Code} {value : Value}
variable {events later : List (Occurrence Outcome)} {last : Option Value} {partly : Prop}

/-! ## From runs depth first -/

/-- The runs of those that await the code, when it has left a value or is suspended. -/
def Awaiting
    (partly : Prop)
    (body : Code → Instr Code Effect Value Reply)
    (reply : ∀ effect, Outcome effect → Reply effect) :
    List (Value → Code) → Option Value → List (Occurrence Outcome) → Option Value → Prop
  | _, none, later, last => later = [] ∧ last = none
  | [], some value, later, last => later = [] ∧ last = some value
  | next :: nexts, some value, later, last =>
      Execution partly body reply nexts (next value) later last

theorem DepthFirst.execution
    {left : Option Value}
    (run : DepthFirst partly body reply code events left)
    (rest : Awaiting partly body reply nexts left later last) :
    Execution partly body reply nexts code (events ++ later) last := by
  induction run generalizing nexts later last with
  | ret returns =>
      cases nexts with
      | nil =>
          obtain ⟨rfl, rfl⟩ := rest
          exact .finish returns
      | cons next nexts => exact .ret returns rest
  | stops stops =>
      obtain ⟨rfl, rfl⟩ := rest
      exact .stops stops
  | handOver awaits =>
      obtain ⟨rfl, rfl⟩ := rest
      exact .handOver awaits
  | inside awaits _ inductionHypothesis => exact .await awaits (inductionHypothesis rest)
  | await awaits _ _ inChild afterChild =>
      rw [List.append_assoc]
      exact .await awaits (inChild (afterChild rest))
  | perform performs _ inductionHypothesis => exact .perform performs (inductionHypothesis rest)
  | wait waits _ inductionHypothesis => exact .wait waits (inductionHypothesis rest)
  | rest suspends =>
      obtain ⟨rfl, rfl⟩ := rest
      exact .rest suspends
  | resume suspends _ inductionHypothesis => exact .resume suspends (inductionHypothesis rest)

/-! ## To runs depth first -/

/-- The runs, depth first, of those that await the code, when it has left a value or is
suspended. -/
def Unwinding
    (partly : Prop)
    (body : Code → Instr Code Effect Value Reply)
    (reply : ∀ effect, Outcome effect → Reply effect) :
    List (Value → Code) → Option Value → List (Occurrence Outcome) → Option Value → Prop
  | _, none, later, last => later = [] ∧ last = none
  | [], some value, later, last => later = [] ∧ last = some value
  | next :: nexts, some value, later, last =>
      ∃ left first second, later = first ++ second ∧
        DepthFirst partly body reply (next value) first left ∧
        Unwinding partly body reply nexts left second last

theorem unwinding_none :
    Unwinding partly body reply nexts none later last ↔ later = [] ∧ last = none := by
  cases nexts with
  | nil => exact Iff.rfl
  | cons next nexts => exact Iff.rfl

theorem Execution.depthFirst
    (run : Execution partly body reply nexts code events last) :
    ∃ left first second, events = first ++ second ∧ DepthFirst partly body reply code first left ∧
      Unwinding partly body reply nexts left second last := by
  induction run with
  | finish returns => exact ⟨_, [], [], rfl, .ret returns, rfl, rfl⟩
  | stops stops => exact ⟨none, [], [], rfl, .stops stops, unwinding_none.mpr ⟨rfl, rfl⟩⟩
  | ret returns _ inductionHypothesis => exact ⟨_, [], _, rfl, .ret returns, inductionHypothesis⟩
  | handOver awaits => exact ⟨none, [], [], rfl, .handOver awaits, unwinding_none.mpr ⟨rfl, rfl⟩⟩
  | await awaits _ inductionHypothesis =>
      obtain ⟨left, first, second, rfl, run, rest⟩ := inductionHypothesis
      cases left with
      | none => exact ⟨none, first, second, rfl, .inside awaits run, unwinding_none.mpr rest⟩
      | some value =>
          obtain ⟨left, middle, second, rfl, goesOn, rest⟩ := rest
          exact ⟨left, first ++ middle, second, (List.append_assoc ..).symm,
            .await awaits run goesOn, rest⟩
  | perform performs _ inductionHypothesis =>
      obtain ⟨left, first, second, rfl, run, rest⟩ := inductionHypothesis
      exact ⟨left, _ :: first, second, rfl, .perform performs run, rest⟩
  | wait waits _ inductionHypothesis =>
      obtain ⟨left, first, second, rfl, run, rest⟩ := inductionHypothesis
      exact ⟨left, _ :: first, second, rfl, .wait waits run, rest⟩
  | rest suspends => exact ⟨none, _, [], rfl, .rest suspends, unwinding_none.mpr ⟨rfl, rfl⟩⟩
  | resume suspends _ inductionHypothesis =>
      obtain ⟨left, first, second, rfl, run, rest⟩ := inductionHypothesis
      exact ⟨left, _ :: first, second, rfl, .resume suspends run, rest⟩

/-- A coroutine that nothing awaits. -/
theorem execution_iff_depthFirst :
    Execution partly body reply [] code events last ↔
      DepthFirst partly body reply code events last := by
  constructor
  · intro run
    obtain ⟨left, first, second, rfl, depthFirst, rest⟩ := run.depthFirst
    cases left with
    | none =>
        obtain ⟨rfl, rfl⟩ := rest
        rwa [List.append_nil]
    | some value =>
        obtain ⟨rfl, rfl⟩ := rest
        rwa [List.append_nil]
  · intro depthFirst
    have rest : Awaiting partly body reply [] last [] last := by
      cases last with
      | none => exact ⟨rfl, rfl⟩
      | some value => exact ⟨rfl, rfl⟩
    have run := depthFirst.execution rest
    rwa [List.append_nil] at run

end Cppio
