import Cppio.Reactor.Executions
import Cppio.Task.DepthFirst

/-!
# What a coroutine of the program does

The coroutines of a program, where a call of the library is one act with everything
that happens in it.  What such a coroutine does, call after call, is what the
executions of its code are made of.
-/

namespace Cppio

variable {User Own Local : Type}

/-- The coroutine belongs to the library. -/
def Start.IsOperation : Start User → Prop
  | .user _ => False
  | _ => True

/-- What a coroutine of the program does. -/
inductive Act (User Own Local : Type)
  | performed (effect : Local) (value : Own)
  | spawned (start : Start User)
  | yielded
  | slept (delay : Int)
  /-- A `sleep` that has called `wait()` and not suspended the task yet. -/
  | sleeping (delay : Int) (started : Bool)
  /-- The `co_await` of an operation, with what has happened in it. -/
  | called (start : Start User) (events : List (Occurs User Own Local))
      (last : Option (Result Own))

def Act.events : Act User Own Local → List (Occurs User Own Local)
  | .performed effect value => [.performed (.perform effect) value]
  | .spawned start => [.performed (.spawn start) ()]
  | .yielded => [.suspended]
  | .slept delay => [.waited, .performed (.startTimer delay) (), .suspended]
  | .sleeping delay started =>
      .waited :: if started then [.performed (.startTimer delay) ()] else []
  | .called _ events _ => events

/-- The acts of a coroutine of the program and of those of its children, up to where it
has returned or its task is suspended; with `partly` also up to anywhere.  Every call is an
execution of the operation. -/
inductive Does (partly : Prop) (program : User → UserInstr User Own Local) :
    User → List (Act User Own Local) → Option (Result Own) → Prop
  | stops {here : User}
      (stops : partly) :
      Does partly program here [] none
  | ret {here : User} {value : Own}
      (returns : program here = .ret value) :
      Does partly program here [] (some (.own value))
  | perform {here : User} {effect : Local} {next : Own → User}
      {acts : List (Act User Own Local)} {last : Option (Result Own)}
      (performs : program here = .perform effect next) (value : Own)
      (run : Does partly program (next value) acts last) :
      Does partly program here (.performed effect value :: acts) last
  | spawn {here next : User} {start : Start User}
      {acts : List (Act User Own Local)} {last : Option (Result Own)}
      (spawns : program here = .spawn start next)
      (run : Does partly program next acts last) :
      Does partly program here (.spawned start :: acts) last
  | yields {here next : User}
      (yields : program here = .yield next) :
      Does partly program here [.yielded] none
  | yield {here next : User} {acts : List (Act User Own Local)} {last : Option (Result Own)}
      (yields : program here = .yield next)
      (run : Does partly program next acts last) :
      Does partly program here (.yielded :: acts) last
  | sleeps {here next : User} {delay : Int}
      (sleeps : program here = .sleep delay next) :
      Does partly program here [.slept delay] none
  | fallsAsleep {here next : User} {delay : Int}
      (sleeps : program here = .sleep delay next) (started : Bool) (stops : partly) :
      Does partly program here [.sleeping delay started] none
  | sleep {here next : User} {delay : Int}
      {acts : List (Act User Own Local)} {last : Option (Result Own)}
      (sleeps : program here = .sleep delay next)
      (run : Does partly program next acts last) :
      Does partly program here (.slept delay :: acts) last
  | handOver {here : User} {child : Start User} {next : Result Own → User}
      (awaits : program here = .await child next) :
      Does partly program here [] none
  | inside {here child : User} {next : Result Own → User} {acts : List (Act User Own Local)}
      (awaits : program here = .await (.user child) next)
      (run : Does partly program child acts none) :
      Does partly program here acts none
  | await {here child : User} {next : Result Own → User} {value : Result Own}
      {acts later : List (Act User Own Local)} {last : Option (Result Own)}
      (awaits : program here = .await (.user child) next)
      (run : Does partly program child acts (some value))
      (rest : Does partly program (next value) later last) :
      Does partly program here (acts ++ later) last
  | calls {here : User} {start : Start User} {next : Result Own → User}
      {events : List (Occurs User Own Local)}
      (awaits : program here = .await start next) (operation : start.IsOperation)
      (runs : start.code.Advances partly program [] events none) :
      Does partly program here [.called start events none] none
  | call {here : User} {start : Start User} {next : Result Own → User} {value : Result Own}
      {events : List (Occurs User Own Local)}
      {acts : List (Act User Own Local)} {last : Option (Result Own)}
      (awaits : program here = .await start next) (operation : start.IsOperation)
      (runs : start.code.Advances partly program [] events (some value))
      (rest : Does partly program (next value) acts last) :
      Does partly program here (.called start events (some value) :: acts) last

namespace Does

variable {partly : Prop} {program : User → UserInstr User Own Local}
variable {here : User} {acts : List (Act User Own Local)} {last : Option (Result Own)}

theorem instr_user {instr : UserInstr User Own Local} (is : program here = instr) :
    (Code.user here : Code User Own).instr program = Code.userInstr instr := by
  rw [Code.instr, is]

/-- The executions, depth first. -/
abbrev Runs (partly : Prop) (program : User → UserInstr User Own Local) (code : Code User Own)
    (events : List (Occurs User Own Local)) (last : Option (Result Own)) : Prop :=
  DepthFirst partly (Code.instr program) Effect.reply code events last

theorem depthFirst (does : Does partly program here acts last) :
    Runs partly program (.user here) (acts.flatMap Act.events) last := by
  induction does with
  | stops stops => exact .stops stops
  | ret returns => exact .ret (instr_user returns)
  | perform performs value _ inductionHypothesis =>
      exact .perform (instr_user performs) inductionHypothesis
  | spawn spawns _ inductionHypothesis => exact .perform (instr_user spawns) inductionHypothesis
  | yields yields => exact .rest (instr_user yields)
  | yield yields _ inductionHypothesis => exact .resume (instr_user yields) inductionHypothesis
  | sleeps sleeps => exact .wait (instr_user sleeps) (.perform rfl (.rest rfl))
  | fallsAsleep sleeps started stops =>
      cases started with
      | false => exact .wait (instr_user sleeps) (.stops stops)
      | true => exact .wait (instr_user sleeps) (.perform rfl (.stops stops))
  | sleep sleeps _ inductionHypothesis =>
      exact .wait (instr_user sleeps) (.perform rfl (.resume rfl inductionHypothesis))
  | handOver awaits => exact .handOver (instr_user awaits)
  | inside awaits _ inductionHypothesis => exact .inside (instr_user awaits) inductionHypothesis
  | await awaits _ _ inChild afterChild =>
      rw [List.flatMap_append]
      exact .await (instr_user awaits) inChild afterChild
  | @calls here start next events awaits operation runs =>
      rw [show [Act.called start events none].flatMap Act.events = events from
        List.append_nil events]
      exact .inside (instr_user awaits) (execution_iff_depthFirst.mp runs)
  | call awaits operation runs _ inductionHypothesis =>
      exact .await (instr_user awaits) (execution_iff_depthFirst.mp runs) inductionHypothesis

/-! ## The steps of a coroutine of the program -/

section

variable {value : Result Own} {child after : Code User Own} {next : Result Own → Code User Own}

theorem user_ret (returns : (Code.user here).instr program = .ret value) :
    ∃ own, program here = .ret own ∧ value = .own own := by
  rw [Code.instr] at returns
  cases is : program here with
  | ret own =>
      rw [is] at returns
      cases returns
      exact ⟨own, rfl, rfl⟩
  | _ =>
      rw [is] at returns
      cases returns

theorem user_await (awaits : (Code.user here).instr program = .await child next) :
    ∃ start goOn, program here = .await start goOn ∧ child = start.code ∧
      next = fun result => .user (goOn result) := by
  rw [Code.instr] at awaits
  cases is : program here with
  | await start goOn =>
      rw [is] at awaits
      cases awaits
      exact ⟨start, goOn, rfl, rfl, rfl⟩
  | _ =>
      rw [is] at awaits
      cases awaits

theorem user_wait (waits : (Code.user here).instr program = .wait after) :
    ∃ delay goOn, program here = .sleep delay goOn ∧
      after = .park [.startTimer delay] (.user goOn) := by
  rw [Code.instr] at waits
  cases is : program here with
  | sleep delay goOn =>
      rw [is] at waits
      cases waits
      exact ⟨delay, goOn, rfl, rfl⟩
  | _ =>
      rw [is] at waits
      cases waits

theorem user_suspend (suspends : (Code.user here).instr program = .suspend after) :
    ∃ goOn, program here = .yield goOn ∧ after = .user goOn := by
  rw [Code.instr] at suspends
  cases is : program here with
  | yield goOn =>
      rw [is] at suspends
      cases suspends
      exact ⟨goOn, rfl, rfl⟩
  | _ =>
      rw [is] at suspends
      cases suspends

/-- An effect of a coroutine of the program is an act of its own. -/
theorem user_perform
    {effect : Effect User Local} {goesOn : effect.Reply Own → Code User Own}
    (performs : (Code.user here).instr program = .perform effect goesOn)
    (outcome : effect.Outcome Own) :
    ∃ act goOn, goesOn (effect.reply outcome) = .user goOn ∧
      act.events = [.performed effect outcome] ∧
      ∀ {acts last}, Does partly program goOn acts last →
        Does partly program here (act :: acts) last := by
  rw [Code.instr] at performs
  cases is : program here with
  | perform effect goOn =>
      rw [is] at performs
      cases performs
      exact ⟨.performed effect outcome, goOn outcome, rfl, rfl, .perform is outcome⟩
  | spawn start goOn =>
      rw [is] at performs
      cases performs
      exact ⟨.spawned start, goOn, rfl, rfl, .spawn is⟩
  | _ =>
      rw [is] at performs
      cases performs

end

/-! ## What an execution does -/

/-- A coroutine that has called `wait()` in its `sleep`, with what it still does there. -/
inductive Sleeping (here : User) : Code User Own → List (Occurs User Own Local) → Prop
  | waiting (delay : Int) :
      Sleeping here (.park [.startTimer delay] (.user here))
        [.performed (.startTimer delay) (), .suspended]
  | armed : Sleeping here (.park [] (.user here)) [.suspended]

/-- What the executions of the coroutines of a program are made of. -/
structure Made
    (partly : Prop) (program : User → UserInstr User Own Local)
    (code : Code User Own) (events : List (Occurs User Own Local))
    (last : Option (Result Own)) : Prop where
  user : ∀ here, code = .user here →
    ∃ acts, Does partly program here acts last ∧ events = acts.flatMap Act.events
  sleeping : ∀ here rest, Sleeping here code rest →
    (partly ∧ last = none ∧ events <+: rest.dropLast) ∨ (events = rest ∧ last = none) ∨
      ∃ acts, Does partly program here acts last ∧ events = rest ++ acts.flatMap Act.events

theorem made_of_depthFirst
    {code : Code User Own} {events : List (Occurs User Own Local)}
    (run : Runs partly program code events last) :
    Made partly program code events last := by
  induction run with
  | stops stops =>
      refine ⟨?_, fun here rest _ => Or.inl ⟨stops, rfl, List.nil_prefix⟩⟩
      rintro here rfl
      exact ⟨[], .stops stops, rfl⟩
  | ret returns =>
      refine ⟨?_, fun here rest sleeping => by cases sleeping with | _ => cases returns⟩
      rintro here rfl
      obtain ⟨own, is, rfl⟩ := user_ret returns
      exact ⟨[], .ret is, rfl⟩
  | handOver awaits =>
      refine ⟨?_, fun here rest sleeping => by cases sleeping with | _ => cases awaits⟩
      rintro here rfl
      obtain ⟨start, next, is, -, -⟩ := user_await awaits
      exact ⟨[], .handOver is, rfl⟩
  | inside awaits run inductionHypothesis =>
      refine ⟨?_, fun here rest sleeping => by cases sleeping with | _ => cases awaits⟩
      rintro here rfl
      obtain ⟨start, next, is, rfl, rfl⟩ := user_await awaits
      cases start with
      | user child =>
          obtain ⟨acts, does, rfl⟩ := inductionHypothesis.user child rfl
          exact ⟨acts, .inside is does, rfl⟩
      | _ =>
          exact ⟨_, .calls is trivial (execution_iff_depthFirst.mpr run),
            (List.append_nil _).symm⟩
  | await awaits run _ inChild afterChild =>
      refine ⟨?_, fun here rest sleeping => by cases sleeping with | _ => cases awaits⟩
      rintro here rfl
      obtain ⟨start, next, is, rfl, rfl⟩ := user_await awaits
      obtain ⟨later, doesLater, rfl⟩ := afterChild.user _ rfl
      cases start with
      | user child =>
          obtain ⟨acts, does, rfl⟩ := inChild.user child rfl
          exact ⟨acts ++ later, .await is does doesLater, List.flatMap_append.symm⟩
      | _ => exact ⟨_, .call is trivial (execution_iff_depthFirst.mpr run) doesLater, rfl⟩
  | perform performs _ inductionHypothesis =>
      constructor
      · rintro here rfl
        obtain ⟨act, goOn, next, events, does⟩ := user_perform performs _
        obtain ⟨acts, doesLater, rfl⟩ := inductionHypothesis.user goOn next
        refine ⟨act :: acts, does doesLater, ?_⟩
        rw [List.flatMap_cons, events]
        rfl
      · intro here rest sleeping
        cases sleeping with
        | armed => cases performs
        | waiting delay =>
            cases performs
            obtain ⟨stops, rfl, none⟩ | ⟨rfl, rfl⟩ | ⟨acts, does, rfl⟩ :=
              inductionHypothesis.sleeping here _ .armed
            · obtain rfl := List.prefix_nil.mp none
              exact Or.inl ⟨stops, rfl, List.prefix_refl _⟩
            · exact Or.inr (Or.inl ⟨rfl, rfl⟩)
            · exact Or.inr (Or.inr ⟨acts, does, rfl⟩)
  | @wait _ _ events _ waits _ inductionHypothesis =>
      refine ⟨?_, fun here rest sleeping => by cases sleeping with | _ => cases waits⟩
      rintro here rfl
      obtain ⟨delay, goOn, is, rfl⟩ := user_wait waits
      obtain ⟨stops, rfl, part⟩ | ⟨rfl, rfl⟩ | ⟨acts, does, rfl⟩ :=
        inductionHypothesis.sleeping goOn _ (.waiting delay)
      · obtain rfl | rfl : events = [] ∨ events = [.performed (.startTimer delay) ()] := by
          simpa [List.prefix_cons_iff] using part
        · exact ⟨_, .fallsAsleep is false stops, rfl⟩
        · exact ⟨_, .fallsAsleep is true stops, rfl⟩
      · exact ⟨_, .sleeps is, rfl⟩
      · exact ⟨_, .sleep is does, rfl⟩
  | rest suspends =>
      constructor
      · rintro here rfl
        obtain ⟨goOn, is, rfl⟩ := user_suspend suspends
        exact ⟨_, .yields is, rfl⟩
      · intro here rest sleeping
        cases sleeping with
        | waiting delay => cases suspends
        | armed => exact Or.inr (Or.inl ⟨rfl, rfl⟩)
  | resume suspends _ inductionHypothesis =>
      constructor
      · rintro here rfl
        obtain ⟨goOn, is, rfl⟩ := user_suspend suspends
        obtain ⟨acts, does, rfl⟩ := inductionHypothesis.user goOn rfl
        exact ⟨_, .yield is does, rfl⟩
      · intro here rest sleeping
        cases sleeping with
        | waiting delay => cases suspends
        | armed =>
            cases suspends
            obtain ⟨acts, does, rfl⟩ := inductionHypothesis.user here rfl
            exact Or.inr (Or.inr ⟨acts, does, rfl⟩)

/-- An execution of a coroutine of the program is one of acts. -/
theorem exists_acts
    {events : List (Occurs User Own Local)}
    (run : (Code.user here).Advances partly program [] events last) :
    ∃ acts, Does partly program here acts last ∧ events = acts.flatMap Act.events :=
  (Does.made_of_depthFirst (execution_iff_depthFirst.mp run)).user here rfl

end Does

/-- Calls of operations are acts as a whole.  The executions of a coroutine of the program,
with its children and with what happens in the operations, are its acts, with an execution
of the operation for every call; and so are the first parts of executions. -/
theorem executes_iff_does
    {partly : Prop} {program : User → UserInstr User Own Local} {here : User}
    {events : List (Occurs User Own Local)} {last : Option (Result Own)} :
    (Code.user here).Advances partly program [] events last ↔
      ∃ acts, Does partly program here acts last ∧ events = acts.flatMap Act.events := by
  constructor
  · exact Does.exists_acts
  · rintro ⟨acts, does, rfl⟩
    exact execution_iff_depthFirst.mpr does.depthFirst

/-! ## The calls among the acts -/

/-- A call is an execution of its operation, or with `partly` a first part of one. -/
def Act.Runs (partly : Prop) (program : User → UserInstr User Own Local) :
    Act User Own Local → Prop
  | .called start events last =>
      start.IsOperation ∧ start.code.Advances partly program [] events last
  | _ => True

/-- A call has returned. -/
def Act.Returned : Act User Own Local → Prop
  | .called _ _ last => last ≠ none
  | _ => True

/-- All calls but perhaps the last act have returned, and that too if nothing goes on. -/
def Act.InTurn (acts : List (Act User Own Local)) (finished : Prop) : Prop :=
  ∃ before final, acts = before ++ final ∧ (∀ act ∈ before, act.Returned) ∧
    final.length ≤ 1 ∧ (finished → final = [])

section

variable {partly : Prop} {program : User → UserInstr User Own Local} {here : User}
variable {act : Act User Own Local} {acts later : List (Act User Own Local)}
variable {last : Option (Result Own)} {finished : Prop}

theorem Act.InTurn.cons (inTurn : Act.InTurn acts finished) (returned : act.Returned) :
    Act.InTurn (act :: acts) finished := by
  obtain ⟨before, final, rfl, each, most, none⟩ := inTurn
  exact ⟨act :: before, final, rfl, List.forall_mem_cons.mpr ⟨returned, each⟩, most, none⟩

theorem Act.InTurn.append
    (inTurn : Act.InTurn acts True) (inTurnLater : Act.InTurn later finished) :
    Act.InTurn (acts ++ later) finished := by
  obtain ⟨before, final, rfl, each, -, none⟩ := inTurn
  obtain rfl := none trivial
  obtain ⟨before', final', rfl, each', most, none'⟩ := inTurnLater
  refine ⟨before ++ before', final', by simp, ?_, most, none'⟩
  exact List.forall_mem_append.mpr ⟨each, each'⟩

theorem Does.inTurn (does : Does partly program here acts last) :
    Act.InTurn acts (last ≠ none) := by
  have empty : ∀ {finished : Prop}, Act.InTurn ([] : List (Act User Own Local)) finished :=
    ⟨[], [], rfl, List.forall_mem_nil _, Nat.zero_le 1, fun _ => rfl⟩
  induction does with
  | stops stops => exact empty
  | ret returns => exact empty
  | perform performs value _ inductionHypothesis => exact inductionHypothesis.cons trivial
  | spawn spawns _ inductionHypothesis => exact inductionHypothesis.cons trivial
  | yields yields => exact empty.cons trivial
  | yield yields _ inductionHypothesis => exact inductionHypothesis.cons trivial
  | sleeps sleeps => exact empty.cons trivial
  | fallsAsleep sleeps started stops => exact empty.cons trivial
  | sleep sleeps _ inductionHypothesis => exact inductionHypothesis.cons trivial
  | handOver awaits => exact empty
  | inside awaits _ inductionHypothesis => exact inductionHypothesis
  | await awaits _ _ inChild afterChild =>
      obtain ⟨before, final, rfl, each, most, none⟩ := inChild
      have child : Act.InTurn (before ++ final) True :=
        ⟨before, final, rfl, each, most, fun _ => none nofun⟩
      exact child.append afterChild
  | calls awaits operation runs =>
      exact ⟨[], _, rfl, List.forall_mem_nil _, Nat.le_refl 1, fun finished => absurd rfl finished⟩
  | call awaits operation runs _ inductionHypothesis => exact inductionHypothesis.cons nofun

theorem Does.runs (does : Does partly program here acts last) :
    ∀ act ∈ acts, act.Runs partly program := by
  induction does with
  | stops stops => exact List.forall_mem_nil _
  | ret returns => exact List.forall_mem_nil _
  | handOver awaits => exact List.forall_mem_nil _
  | inside awaits _ inductionHypothesis => exact inductionHypothesis
  | await awaits _ _ inChild afterChild =>
      exact List.forall_mem_append.mpr ⟨inChild, afterChild⟩
  | calls awaits operation runs => exact List.forall_mem_singleton.mpr ⟨operation, runs⟩
  | call awaits operation runs _ inductionHypothesis =>
      exact List.forall_mem_cons.mpr ⟨⟨operation, runs⟩, inductionHypothesis⟩
  | yields yields => exact List.forall_mem_singleton.mpr trivial
  | sleeps sleeps => exact List.forall_mem_singleton.mpr trivial
  | fallsAsleep sleeps started stops => exact List.forall_mem_singleton.mpr trivial
  | perform performs value _ inductionHypothesis =>
      exact List.forall_mem_cons.mpr ⟨trivial, inductionHypothesis⟩
  | spawn spawns _ inductionHypothesis =>
      exact List.forall_mem_cons.mpr ⟨trivial, inductionHypothesis⟩
  | yield yields _ inductionHypothesis =>
      exact List.forall_mem_cons.mpr ⟨trivial, inductionHypothesis⟩
  | sleep sleeps _ inductionHypothesis =>
      exact List.forall_mem_cons.mpr ⟨trivial, inductionHypothesis⟩

end

end Cppio
