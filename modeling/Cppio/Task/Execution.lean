import Cppio.Task.Trace

/-!
# What a coroutine does with those that it awaits

The runs of a coroutine and of the children that it awaits, one within the other,
as the list of what happens on them; or the first parts of such runs.  A property
of these runs follows from one of the single steps: what the surroundings may do is
assumed, and what the code does is guaranteed, of each occurrence in the state that
those before it have led to.
-/

namespace Cppio

variable {Code Effect Value : Type} {Reply Outcome : Effect → Type}

/-- The runs of the code, which is awaited by these in turn, up to where the outermost
of them has returned a value or the task is suspended; with `partly` also their first
parts, up to anywhere.  The suspension of an await does not occur by itself. -/
inductive Execution
    (partly : Prop)
    (body : Code → Instr Code Effect Value Reply)
    (reply : ∀ effect, Outcome effect → Reply effect) :
    List (Value → Code) → Code → List (Occurrence Outcome) → Option Value → Prop
  | finish {code : Code} {value : Value}
      (returns : body code = .ret value) :
      Execution partly body reply [] code [] (some value)
  | stops {nexts : List (Value → Code)} {code : Code}
      (stops : partly) :
      Execution partly body reply nexts code [] none
  | ret {nexts : List (Value → Code)} {next : Value → Code} {code : Code} {value : Value}
      {events : List (Occurrence Outcome)} {last : Option Value}
      (returns : body code = .ret value)
      (run : Execution partly body reply nexts (next value) events last) :
      Execution partly body reply (next :: nexts) code events last
  | handOver {nexts : List (Value → Code)} {code child : Code} {next : Value → Code}
      (awaits : body code = .await child next) :
      Execution partly body reply nexts code [] none
  | await {nexts : List (Value → Code)} {code child : Code} {next : Value → Code}
      {events : List (Occurrence Outcome)} {last : Option Value}
      (awaits : body code = .await child next)
      (run : Execution partly body reply (next :: nexts) child events last) :
      Execution partly body reply nexts code events last
  | perform {nexts : List (Value → Code)} {code : Code} {effect : Effect}
      {next : Reply effect → Code} {outcome : Outcome effect}
      {events : List (Occurrence Outcome)} {last : Option Value}
      (performs : body code = .perform effect next)
      (run : Execution partly body reply nexts (next (reply effect outcome)) events last) :
      Execution partly body reply nexts code (.performed effect outcome :: events) last
  | wait {nexts : List (Value → Code)} {code next : Code}
      {events : List (Occurrence Outcome)} {last : Option Value}
      (waits : body code = .wait next)
      (run : Execution partly body reply nexts next events last) :
      Execution partly body reply nexts code (.waited :: events) last
  | rest {nexts : List (Value → Code)} {code next : Code}
      (suspends : body code = .suspend next) :
      Execution partly body reply nexts code [.suspended] none
  | resume {nexts : List (Value → Code)} {code next : Code}
      {events : List (Occurrence Outcome)} {last : Option Value}
      (suspends : body code = .suspend next)
      (run : Execution partly body reply nexts next events last) :
      Execution partly body reply nexts code (.suspended :: events) last

variable {body : Code → Instr Code Effect Value Reply}
variable {reply : ∀ effect, Outcome effect → Reply effect}

/-- A run without an await is a run. -/
theorem Runs.execution
    {code : Code} {events : List (Occurrence Outcome)} {last : Option Value}
    {partly : Prop} (run : Runs body reply code events last) :
    Execution partly body reply [] code events last := by
  induction run with
  | ret returns => exact .finish returns
  | rest suspends => exact .rest suspends
  | perform performs _ inductionHypothesis => exact .perform performs inductionHypothesis
  | wait waits _ inductionHypothesis => exact .wait waits inductionHypothesis
  | resume suspends _ inductionHypothesis => exact .resume suspends inductionHypothesis

/-- A run is one of those that may stop. -/
theorem Execution.partly
    {nexts : List (Value → Code)} {code : Code} {events : List (Occurrence Outcome)}
    {last : Option Value}
    (run : Execution False body reply nexts code events last) :
    Execution True body reply nexts code events last := by
  induction run with
  | finish returns => exact .finish returns
  | stops stops => exact stops.elim
  | ret returns _ inductionHypothesis => exact .ret returns inductionHypothesis
  | handOver awaits => exact .handOver awaits
  | await awaits _ inductionHypothesis => exact .await awaits inductionHypothesis
  | perform performs _ inductionHypothesis => exact .perform performs inductionHypothesis
  | wait waits _ inductionHypothesis => exact .wait waits inductionHypothesis
  | rest suspends => exact .rest suspends
  | resume suspends _ inductionHypothesis => exact .resume suspends inductionHypothesis

/-! ## Assumptions and guarantees -/

section

variable {State Event : Type}

/-- Every event has the property in the state that those before it have led to. -/
def Along (advance : State → Event → State) (property : State → Event → Prop) :
    State → List Event → Prop
  | _, [] => True
  | state, event :: events =>
      property state event ∧ Along advance property (advance state event) events

theorem Along.forall_mem
    {advance : State → Event → State} {property : State → Event → Prop}
    {always : Event → Prop} {state : State} {events : List Event}
    (along : Along advance property state events)
    (implies : ∀ state event, property state event → always event) :
    ∀ event ∈ events, always event := by
  induction events generalizing state with
  | nil => exact fun _ absent => nomatch absent
  | cons first events inductionHypothesis =>
      intro event present
      rcases List.mem_cons.mp present with rfl | later
      · exact implies _ _ along.1
      · exact inductionHypothesis along.2 event later

theorem along_of_forall_mem
    {advance : State → Event → State} {always : Event → Prop}
    {events : List Event}
    (each : ∀ event ∈ events, always event)
    (state : State) :
    Along advance (fun _ => always) state events := by
  induction events generalizing state with
  | nil => trivial
  | cons first events inductionHypothesis =>
      obtain ⟨here, later⟩ := List.forall_mem_cons.mp each
      exact ⟨here, inductionHypothesis later _⟩

end

variable {State : Type}

/-- Where an occurrence is as assumed, it is as guaranteed, and every step of the code
keeps the invariant. -/
structure KeepsInvariant
    (body : Code → Instr Code Effect Value Reply)
    (reply : ∀ effect, Outcome effect → Reply effect)
    (advance : State → Occurrence Outcome → State)
    (assumed guaranteed : State → Occurrence Outcome → Prop)
    (invariant : List (Value → Code) → Code → State → Prop) : Prop where
  ret : ∀ {nexts next code value state}, invariant (next :: nexts) code state →
    body code = .ret value → invariant nexts (next value) state
  await : ∀ {nexts code child next state}, invariant nexts code state →
    body code = .await child next → invariant (next :: nexts) child state
  perform : ∀ {nexts code effect next outcome state}, invariant nexts code state →
    body code = .perform effect next → assumed state (.performed effect outcome) →
      guaranteed state (.performed effect outcome) ∧
        invariant nexts (next (reply effect outcome))
          (advance state (.performed effect outcome))
  wait : ∀ {nexts code next state}, invariant nexts code state →
    body code = .wait next → assumed state .waited →
      guaranteed state .waited ∧ invariant nexts next (advance state .waited)
  suspend : ∀ {nexts code next state}, invariant nexts code state →
    body code = .suspend next → assumed state .suspended →
      guaranteed state .suspended ∧ invariant nexts next (advance state .suspended)

/-- What a run guarantees where its occurrences are as assumed. -/
structure Guarantees
    (body : Code → Instr Code Effect Value Reply)
    (advance : State → Occurrence Outcome → State)
    (guaranteed : State → Occurrence Outcome → Prop)
    (invariant : List (Value → Code) → Code → State → Prop)
    (state : State) (events : List (Occurrence Outcome)) (last : Option Value) : Prop where
  along : Along advance guaranteed state events
  unfinished : last = none →
    ∃ nexts code, invariant nexts code (events.foldl advance state)
  finished : ∀ value, last = some value →
    ∃ code, invariant [] code (events.foldl advance state) ∧ body code = .ret value

/-- A step lemma for every instruction gives one for every run. -/
theorem KeepsInvariant.guarantees
    {advance : State → Occurrence Outcome → State}
    {assumed guaranteed : State → Occurrence Outcome → Prop}
    {invariant : List (Value → Code) → Code → State → Prop}
    {nexts : List (Value → Code)} {code : Code} {state : State}
    {events : List (Occurrence Outcome)} {last : Option Value}
    {partly : Prop}
    (keeps : KeepsInvariant body reply advance assumed guaranteed invariant)
    (run : Execution partly body reply nexts code events last)
    (assumes : Along advance assumed state events)
    (holds : invariant nexts code state) :
    Guarantees body advance guaranteed invariant state events last := by
  induction run generalizing state with
  | @finish code value returns =>
      refine ⟨trivial, nofun, fun value' some => ?_⟩
      obtain rfl := Option.some.inj some
      exact ⟨code, holds, returns⟩
  | stops _ => exact ⟨trivial, fun _ => ⟨_, _, holds⟩, nofun⟩
  | ret returns _ inductionHypothesis =>
      exact inductionHypothesis assumes (keeps.ret holds returns)
  | handOver _ =>
      exact ⟨trivial, fun _ => ⟨_, _, holds⟩, nofun⟩
  | await awaits _ inductionHypothesis =>
      exact inductionHypothesis assumes (keeps.await holds awaits)
  | perform performs _ inductionHypothesis =>
      obtain ⟨here, kept⟩ := keeps.perform holds performs assumes.1
      have later := inductionHypothesis assumes.2 kept
      exact ⟨⟨here, later.along⟩, later.unfinished, later.finished⟩
  | wait waits _ inductionHypothesis =>
      obtain ⟨here, kept⟩ := keeps.wait holds waits assumes.1
      have later := inductionHypothesis assumes.2 kept
      exact ⟨⟨here, later.along⟩, later.unfinished, later.finished⟩
  | rest suspends =>
      obtain ⟨here, kept⟩ := keeps.suspend holds suspends assumes.1
      exact ⟨⟨here, trivial⟩, fun _ => ⟨_, _, kept⟩, nofun⟩
  | resume suspends _ inductionHypothesis =>
      obtain ⟨here, kept⟩ := keeps.suspend holds suspends assumes.1
      have later := inductionHypothesis assumes.2 kept
      exact ⟨⟨here, later.along⟩, later.unfinished, later.finished⟩

end Cppio
