import Cppio.Library.Machine
import Cppio.Task.Chain

/-!
# `one_step` and sequential execution

Coroutines as programs: local steps, children that are awaited, yields, parks,
and a value in the end.  The evaluator runs a program depth first, in one go.
Calls of `one_step`, between them wake-ups of the parked task, do the same
steps in the same order, and as many calls as there are suspensions and one
more finish the task.
-/

namespace Cppio

/-- A coroutine that performs local steps, awaits fresh children, yields, parks
and returns. -/
inductive Program (Effect Value : Type) (Reply : Effect → Type)
  | perform (effect : Effect) (next : Reply effect → Program Effect Value Reply)
  | await (child : Program Effect Value Reply) (next : Value → Program Effect Value Reply)
  | yield (next : Program Effect Value Reply)
  | park (next : Program Effect Value Reply)
  | ret (value : Value)

/-- What an execution shows. -/
inductive Observation (Effect Value : Type) (Reply : Effect → Type)
  | performed (effect : Effect) (reply : Reply effect)
  /-- An awaiter receives the value of its child. -/
  | received (value : Value)
  | returned (value : Value)

/-- The result of an execution. -/
structure Outcome (Effect Value World : Type) (Reply : Effect → Type) where
  value : Value
  world : World
  trace : List (Observation Effect Value Reply)
  suspensions : Nat

variable {Effect Value World : Type} {Reply : Effect → Type}

namespace Outcome

/-- The outcome with what came before it. -/
def after
    (trace : List (Observation Effect Value Reply))
    (suspensions : Nat)
    (outcome : Outcome Effect Value World Reply) : Outcome Effect Value World Reply :=
  { outcome with
    trace := trace ++ outcome.trace
    suspensions := suspensions + outcome.suspensions }

@[simp] theorem after_value
    (trace : List (Observation Effect Value Reply))
    (suspensions : Nat)
    (outcome : Outcome Effect Value World Reply) :
    (outcome.after trace suspensions).value = outcome.value := rfl

@[simp] theorem after_world
    (trace : List (Observation Effect Value Reply))
    (suspensions : Nat)
    (outcome : Outcome Effect Value World Reply) :
    (outcome.after trace suspensions).world = outcome.world := rfl

@[simp] theorem after_trace
    (trace : List (Observation Effect Value Reply))
    (suspensions : Nat)
    (outcome : Outcome Effect Value World Reply) :
    (outcome.after trace suspensions).trace = trace ++ outcome.trace := rfl

@[simp] theorem after_suspensions
    (trace : List (Observation Effect Value Reply))
    (suspensions : Nat)
    (outcome : Outcome Effect Value World Reply) :
    (outcome.after trace suspensions).suspensions = suspensions + outcome.suspensions := rfl

@[simp] theorem after_nil_zero (outcome : Outcome Effect Value World Reply) :
    outcome.after [] 0 = outcome := by
  simp [after]

/-- What came before in two parts came before as a whole. -/
@[simp] theorem after_after
    (trace trace' : List (Observation Effect Value Reply))
    (suspensions suspensions' : Nat)
    (outcome : Outcome Effect Value World Reply) :
    (outcome.after trace' suspensions').after trace suspensions =
      outcome.after (trace ++ trace') (suspensions + suspensions') := by
  simp [after, Nat.add_assoc]

end Outcome

namespace Program

variable (perform : (effect : Effect) → World → Reply effect × World)

/-- Sequential execution, depth first. -/
def eval : Program Effect Value Reply → World → Outcome Effect Value World Reply
  | .perform effect next, world =>
      (eval (next (perform effect world).1) (perform effect world).2).after
        [.performed effect (perform effect world).1] 0
  | .await child next, world =>
      (eval (next (eval child world).value) (eval child world).world).after
        ((eval child world).trace ++ [.received (eval child world).value])
        ((eval child world).suspensions + 1)
  | .yield next, world => (eval next world).after [] 1
  | .park next, world => (eval next world).after [] 1
  | .ret value, world => ⟨value, world, [.returned value], 0⟩

/-- Sequential execution of what awaits an execution, from the inside out. -/
def evalNexts :
    List (Value → Program Effect Value Reply) → Outcome Effect Value World Reply →
      Outcome Effect Value World Reply
  | [], outcome => outcome
  | next :: nexts, outcome =>
      evalNexts nexts ((eval perform (next outcome.value) outcome.world).after
        (outcome.trace ++ [.received outcome.value]) outcome.suspensions)

@[simp] theorem evalNexts_after
    (nexts : List (Value → Program Effect Value Reply))
    (trace : List (Observation Effect Value Reply))
    (suspensions : Nat)
    (outcome : Outcome Effect Value World Reply) :
    evalNexts perform nexts (outcome.after trace suspensions) =
      (evalNexts perform nexts outcome).after trace suspensions := by
  induction nexts generalizing outcome with
  | nil => rfl
  | cons next nexts inductionHypothesis =>
      rw [evalNexts, evalNexts, ← inductionHypothesis]
      simp

/-- Sequential execution of a program and of those that await it. -/
def remaining
    (nexts : List (Value → Program Effect Value Reply))
    (program : Program Effect Value Reply)
    (world : World) : Outcome Effect Value World Reply :=
  evalNexts perform nexts (eval perform program world)

theorem remaining_perform
    (nexts : List (Value → Program Effect Value Reply))
    (effect : Effect)
    (next : Reply effect → Program Effect Value Reply)
    (world : World) :
    remaining perform nexts (.perform effect next) world =
      (remaining perform nexts (next (perform effect world).1) (perform effect world).2).after
        [.performed effect (perform effect world).1] 0 := by
  simp [remaining, eval]

theorem remaining_yield
    (nexts : List (Value → Program Effect Value Reply))
    (next : Program Effect Value Reply)
    (world : World) :
    remaining perform nexts (.yield next) world =
      (remaining perform nexts next world).after [] 1 := by
  simp [remaining, eval]

/-- Awaiting a child suspends once before the child starts. -/
theorem remaining_await
    (nexts : List (Value → Program Effect Value Reply))
    (child : Program Effect Value Reply)
    (next : Value → Program Effect Value Reply)
    (world : World) :
    remaining perform nexts (.await child next) world =
      (remaining perform (next :: nexts) child world).after [] 1 := by
  simp [remaining, eval, evalNexts, Nat.add_comm]

/-- The awaiter of a program that returns goes on with the value. -/
theorem remaining_ret
    (nexts : List (Value → Program Effect Value Reply))
    (next : Value → Program Effect Value Reply)
    (value : Value)
    (world : World) :
    remaining perform (next :: nexts) (.ret value) world =
      (remaining perform nexts (next value) world).after
        [.returned value, .received value] 0 := by
  simp [remaining, eval, evalNexts]

/-- What a program does next as a coroutine.  Parking is `wait()` and a
suspension. -/
def body :
    Program Effect Value Reply → Instr (Program Effect Value Reply) Effect Value Reply
  | .perform effect next => .perform effect next
  | .await child next => .await child next
  | .yield next => .suspend next
  | .park next => .wait (.yield next)
  | .ret value => .ret value

end Program

/-- The world of a task, its state, and a record of its execution. -/
structure Session (Effect Value World : Type) (Reply : Effect → Type) where
  /-- `m_state`. -/
  state : ScheduleType
  world : World
  trace : List (Observation Effect Value Reply)
  /-- How often `wait()` was called. -/
  parks : Nat
  /-- The resumed coroutines, with the frames that they were resumed in. -/
  resumed : List (Frames (Program Effect Value Reply) Value × Handle)

namespace Session

/-- Add an event of the coroutines to the record. -/
def observe :
    Event (Program Effect Value Reply) Value → Session Effect Value World Reply →
      Session Effect Value World Reply
  | .resumed frames handle, session =>
      { session with resumed := session.resumed ++ [(frames, handle)] }
  | .received value, session => { session with trace := session.trace ++ [.received value] }
  | .returned value, session => { session with trace := session.trace ++ [.returned value] }

/-- The programs as the coroutines of a task. -/
def system (perform : (effect : Effect) → World → Reply effect × World) :
    System (Program Effect Value Reply) Effect Value (Session Effect Value World Reply) Reply where
  body := Program.body
  perform effect session :=
    ((perform effect session.world).1,
      { session with
        world := (perform effect session.world).2
        trace := session.trace ++ [.performed effect (perform effect session.world).1] })
  state := state
  wait session := { session with state := .wait, parks := session.parks + 1 }
  observe := observe

end Session

/-- A task with its coroutines, called and woken from outside. -/
structure Driver (Effect Value World : Type) (Reply : Effect → Type) where
  frames : Frames (Program Effect Value Reply) Value
  session : Session Effect Value World Reply
  /-- How often `one_step` was called. -/
  calls : Nat
  /-- What the last call returned. -/
  result : Option ScheduleType

namespace Driver

/-- A call of `one_step`, or a wake-up. -/
inductive Label
  | call (fuel : Nat)
  | wake

/-- The task has not started. -/
def start (program : Program Effect Value Reply) (world : World) :
    Driver Effect Value World Reply where
  frames := Frames.ofCode program
  session := { state := .run, world := world, trace := [], parks := 0, resumed := [] }
  calls := 0
  result := none

/-- `one_step` may be called: the task does not wait and has not been finished. -/
def Callable (driver : Driver Effect Value World Reply) : Prop :=
  driver.session.state ≠ .wait ∧ driver.result ≠ some .done

instance (driver : Driver Effect Value World Reply) : Decidable driver.Callable :=
  inferInstanceAs (Decidable (_ ∧ _))

variable (perform : (effect : Effect) → World → Reply effect × World)

def step (driver : Driver Effect Value World Reply) :
    Label → Option (Driver Effect Value World Reply)
  | .call fuel =>
      if driver.Callable then
        match (Session.system perform).oneStep fuel driver.frames driver.session with
        | .ok (result, frames, session) =>
            some ⟨frames, session, driver.calls + 1, some result⟩
        | .error _ => none
      else none
  | .wake =>
      if driver.session.state = .wait then
        some { driver with session := { driver.session with state := .run } }
      else none

/-! ## The outline of a call -/

/-- Only innermost unfinished coroutines were resumed. -/
def InOrder (session : Session Effect Value World Reply) : Prop :=
  ∀ resumption ∈ session.resumed, resumption.1.Innermost resumption.2

/-- What was done, after so many suspensions, and what remains to do are the
sequential execution. -/
def Remains
    (total : Outcome Effect Value World Reply)
    (suspensions : Nat)
    (nexts : List (Value → Program Effect Value Reply))
    (program : Program Effect Value Reply)
    (session : Session Effect Value World Reply) : Prop :=
  (Program.remaining perform nexts program session.world).after session.trace suspensions = total

/-- Whether the call has called `wait()`; then the program is about to suspend. -/
inductive Phase (parks : Nat) (session : Session Effect Value World Reply) :
    Program Effect Value Reply → Prop
  | runs {program : Program Effect Value Reply}
      (state : session.state = .run) (same : session.parks = parks) : Phase parks session program
  | parking {next : Program Effect Value Reply}
      (state : session.state = .wait) (parked : session.parks = parks + 1) :
      Phase parks session (.yield next)

/-- Whether a call that has left the task suspended has parked it. -/
structure Parks (parks : Nat) (session : Session Effect Value World Reply) : Prop where
  state : session.state = .run ∨ session.state = .wait
  count : session.parks = parks + if session.state = .wait then 1 else 0

omit perform in
theorem InOrder.resumed
    {session : Session Effect Value World Reply}
    (inOrder : InOrder session)
    {frames : Frames (Program Effect Value Reply) Value} {handle : Handle}
    (innermost : frames.Innermost handle) :
    InOrder (Session.observe (.resumed frames handle) session) := by
  intro resumption present
  rcases List.mem_append.mp present with earlier | now
  · exact inOrder resumption earlier
  · obtain rfl := List.mem_singleton.mp now
    exact innermost

/-- A call of `one_step`, after some calls and some parks. -/
def outline (total : Outcome Effect Value World Reply) (calls parks : Nat) :
    Outline (Session.system perform :
      System (Program Effect Value Reply) Effect Value (Session Effect Value World Reply)
        Reply) where
  Running nexts program session :=
    Remains perform total calls nexts program session ∧ InOrder session ∧
      Phase parks session program
  Resting nexts program session :=
    Remains perform total calls nexts program session ∧ InOrder session ∧
      session.state = .run ∧ session.parks = parks
  Suspended nexts program session :=
    Remains perform total (calls + 1) nexts program session ∧ InOrder session ∧
      Parks parks session
  Finished value session :=
    total = ⟨value, session.world, session.trace, calls⟩ ∧ InOrder session ∧
      session.state = .run ∧ session.parks = parks
  perform := by
    rintro nexts program session effect next ⟨remains, inOrder, phase⟩ body
    cases program with
    | perform effect' next' =>
        obtain ⟨rfl, rfl⟩ := Instr.perform.inj body
        cases phase with
        | runs state same =>
            refine ⟨?_, inOrder, .runs state same⟩
            rw [Remains, Program.remaining_perform] at remains
            simpa [Remains, Session.system] using remains
    | _ => cases body
  wait := by
    rintro nexts program session next ⟨remains, inOrder, phase⟩ body
    cases program with
    | park next =>
        obtain rfl := Instr.wait.inj body
        cases phase with
        | runs state same => exact ⟨remains, inOrder, .parking rfl (congrArg (· + 1) same)⟩
    | _ => cases body
  suspend := by
    rintro nexts program session next ⟨remains, inOrder, phase⟩ body
    cases program with
    | yield next =>
        obtain rfl := Instr.suspend.inj body
        rw [Remains, Program.remaining_yield] at remains
        refine ⟨by simpa [Remains] using remains, inOrder, ?_⟩
        cases phase with
        | runs state same => exact ⟨Or.inl state, by simpa [state] using same⟩
        | parking state parked => exact ⟨Or.inr state, by simpa [state] using parked⟩
    | _ => cases body
  await := by
    rintro nexts program session child next ⟨remains, inOrder, phase⟩ body
    cases program with
    | await child next =>
        obtain ⟨rfl, rfl⟩ := Instr.await.inj body
        cases phase with
        | runs state same =>
            rw [Remains, Program.remaining_await] at remains
            refine ⟨by simpa [Remains] using remains, inOrder, Or.inl state, ?_⟩
            simpa [state] using same
    | _ => cases body
  awake := by
    rintro nexts program session value next ⟨-, -, phase⟩ body
    cases phase with
    | runs state same =>
        change session.state ≠ .wait
        rw [state]
        decide
    | parking => cases body
  ret := by
    rintro nexts program session value next frames handle ⟨remains, inOrder, phase⟩ body innermost
    cases program with
    | ret value =>
        obtain rfl := Instr.ret.inj body
        cases phase with
        | runs state same =>
            refine ⟨?_, inOrder.resumed innermost, .runs state same⟩
            rw [Remains, Program.remaining_ret] at remains
            simpa [Remains, Session.system, Session.observe] using remains
    | _ => cases body
  finish := by
    rintro program session value ⟨remains, inOrder, phase⟩ body
    cases program with
    | ret value =>
        obtain rfl := Instr.ret.inj body
        cases phase with
        | runs state same => exact ⟨remains.symm, inOrder, state, same⟩
    | _ => cases body
  start := by
    rintro nexts program session frames handle ⟨remains, inOrder, state, same⟩ - innermost
    exact ⟨remains, inOrder.resumed innermost, .runs state same⟩

/-! ## Runs of the driver -/

/-- Between two calls the task is suspended inside the sequential execution, or
has come to its end. -/
structure Follows
    (total : Outcome Effect Value World Reply)
    (driver : Driver Effect Value World Reply) : Prop where
  inOrder : InOrder driver.session
  state : driver.session.state = .run ∨ driver.session.state = .wait
  place :
    (driver.result ≠ some .done ∧ driver.frames.SuspendedAt fun nexts program =>
        Remains perform total driver.calls nexts program driver.session) ∨
      (driver.result = some .done ∧ driver.session.state = .run ∧
        driver.frames.FinishedWith total.value ∧ driver.session.world = total.world ∧
        driver.session.trace = total.trace ∧ driver.calls = total.suspensions + 1)

theorem follows_start (program : Program Effect Value Reply) (world : World) :
    Follows perform (program.eval perform world) (start program world) where
  inOrder := by simp [InOrder, start]
  state := Or.inl rfl
  place := by
    refine Or.inl ⟨by simp [start], Frames.suspendedAt_ofCode ?_⟩
    simp [Remains, Program.remaining, Program.evalNexts, start]

variable {perform}
variable {total : Outcome Effect Value World Reply} {driver next : Driver Effect Value World Reply}

/-- The outline of the next call. -/
theorem Follows.resting
    (follows : Follows perform total driver)
    (callable : driver.Callable) :
    driver.frames.SuspendedAt fun nexts program =>
      (outline perform total driver.calls driver.session.parks).Resting nexts program
        driver.session := by
  obtain ⟨inOrder, state, ⟨-, suspended⟩ | ⟨done, -⟩⟩ := follows
  · refine suspended.imp fun nexts program remains => ⟨remains, inOrder, ?_, rfl⟩
    exact state.resolve_right callable.1
  · exact absurd done callable.2

/-- What one call shows: `kWait` exactly when it parked the task, `kDone`
exactly when it finished the task's own coroutine. -/
structure Shows (driver next : Driver Effect Value World Reply) : Prop where
  parks : next.session.parks =
    driver.session.parks + if next.result = some .wait then 1 else 0
  done : next.result = some .done ↔ ∃ value, next.frames.FinishedWith value

/-- `one_step` leaves the task where sequential execution goes on. -/
theorem follows_of_result
    {result : ScheduleType} {frames : Frames (Program Effect Value Reply) Value}
    {session : Session Effect Value World Reply}
    (left : (outline perform total driver.calls driver.session.parks).Result
      result frames session) :
    Follows perform total ⟨frames, session, driver.calls + 1, some result⟩ ∧
      Shows driver ⟨frames, session, driver.calls + 1, some result⟩ := by
  obtain ⟨rfl, value, finished, rfl, inOrder, state, same⟩ | ⟨rfl, suspended⟩ := left
  · refine ⟨⟨inOrder, Or.inl state, Or.inr ⟨rfl, state, finished, rfl, rfl, rfl⟩⟩, ?_, ?_⟩
    · simpa using same
    · exact ⟨fun _ => ⟨value, finished⟩, fun _ => rfl⟩
  · have unfinished := suspended.unfinished
    obtain ⟨handle, frame, program, nexts, stacked, point, remains, inOrder, parks⟩ := suspended
    have place : frames.SuspendedAt fun nexts program =>
        Remains perform total (driver.calls + 1) nexts program session :=
      ⟨handle, frame, program, nexts, stacked, point, remains⟩
    have notDone : session.state ≠ .done := by
      rcases parks.state with state | state
      · simp [state]
      · simp [state]
    change Follows perform total ⟨frames, session, driver.calls + 1, some session.state⟩ ∧
      Shows driver ⟨frames, session, driver.calls + 1, some session.state⟩
    refine ⟨⟨inOrder, parks.state, Or.inl ⟨?_, place⟩⟩, ?_, ?_⟩
    · simpa using notDone
    · simpa using parks.count
    · refine ⟨fun done => absurd (Option.some.inj done) notDone, fun ⟨value, finished⟩ => ?_⟩
      exact absurd finished (unfinished value)

/-- A call takes a step, with the result of `one_step`. -/
theorem step_call
    {fuel : Nat}
    (stepped : step perform driver (.call fuel) = some next) :
    driver.Callable ∧ ∃ result frames session,
      (Session.system perform).oneStep fuel driver.frames driver.session =
        .ok (result, frames, session) ∧
      next = ⟨frames, session, driver.calls + 1, some result⟩ := by
  simp only [step] at stepped
  split_ifs at stepped with callable
  split at stepped
  · next result frames session returned =>
      exact ⟨callable, result, frames, session, returned, (Option.some.inj stepped).symm⟩
  · cases stepped

/-- Every call follows sequential execution and shows what it did. -/
theorem Follows.stepCall
    (follows : Follows perform total driver)
    {fuel : Nat}
    (stepped : step perform driver (.call fuel) = some next) :
    Follows perform total next ∧ Shows driver next := by
  obtain ⟨callable, result, frames, session, returned, rfl⟩ := step_call stepped
  rcases (outline perform total driver.calls driver.session.parks).oneStep_result
    (follows.resting callable) callable.1 fuel with stuck | ⟨_, _, _, returned', left⟩
  · rw [stuck] at returned
    cases returned
  · obtain ⟨rfl, rfl, rfl⟩ : _ ∧ _ ∧ _ := by
      simpa using Except.ok.inj (returned'.symm.trans returned)
    exact follows_of_result left

theorem Follows.step
    {label : Label}
    (follows : Follows perform total driver)
    (stepped : step perform driver label = some next) :
    Follows perform total next := by
  cases label with
  | call fuel => exact (follows.stepCall stepped).1
  | wake =>
      simp only [Driver.step] at stepped
      split_ifs at stepped with waiting
      obtain rfl := Option.some.inj stepped
      obtain ⟨inOrder, -, ⟨open', suspended⟩ | ⟨-, state, -⟩⟩ := follows
      · exact ⟨inOrder, Or.inl rfl, Or.inl ⟨open', suspended⟩⟩
      · rw [state] at waiting
        cases waiting

theorem follows_of_reachable
    {program : Program Effect Value Reply} {world : World}
    (reachable : Machine.Reachable (step perform) (start program world) driver) :
    Follows perform (program.eval perform world) driver :=
  Machine.invariant_of_reachable (fun _ _ _ follows stepped => follows.step stepped)
    (follows_start perform program world) reachable

/-! ## The end of a task -/

/-- Programs do not run on for ever. -/
theorem runsEnd :
    Outline.RunsEnd (Session.system perform :
      System (Program Effect Value Reply) Effect Value (Session Effect Value World Reply)
        Reply) := by
  intro handle frame frames program session
  induction program generalizing session with
  | perform effect next inductionHypothesis =>
      exact (inductionHypothesis _ _).succ fun _ => rfl
  | await child next => exact Outline.settles_of_forall fun _ => rfl
  | yield next => exact Outline.settles_of_forall fun _ => rfl
  | park next => exact (Outline.settles_of_forall fun _ => rfl).succ fun _ => rfl
  | ret value => exact Outline.settles_of_forall fun _ => rfl

/-- A call with enough fuel returns. -/
theorem Follows.returns
    (follows : Follows perform total driver)
    (callable : driver.Callable) :
    ∃ fuel next, Driver.step perform driver (.call fuel) = some next := by
  obtain ⟨⟨result, frames, session⟩, enough, settles⟩ :=
    (outline perform total driver.calls driver.session.parks).oneStep_settles runsEnd
      (follows.resting callable) callable.1
  refine ⟨enough, ⟨frames, session, driver.calls + 1, some result⟩, ?_⟩
  have returned := settles 0
  rw [Nat.add_zero] at returned
  simp only [Driver.step, if_pos callable, returned]

/-- There are as many calls as suspensions, and one more. -/
theorem Follows.calls_le
    (follows : Follows perform total driver) :
    driver.calls ≤ total.suspensions + if driver.result = some .done then 1 else 0 := by
  obtain ⟨-, -, ⟨unfinished, handle, frame, program, nexts, -, -, remains⟩ |
    ⟨done, -, -, -, -, calls⟩⟩ := follows
  · rw [if_neg unfinished, ← remains]
    exact Nat.le_add_right _ _
  · rw [if_pos done, calls]

/-- A wake-up, where the task waits for one, makes it callable again. -/
theorem Follows.wakes
    (follows : Follows perform total driver)
    (unfinished : driver.result ≠ some .done) :
    ∃ labels awake, Machine.run (Driver.step perform) driver labels = some awake ∧
      Follows perform total awake ∧ awake.Callable ∧ awake.calls = driver.calls := by
  by_cases waiting : driver.session.state = .wait
  · have stepped : Driver.step perform driver .wake =
        some { driver with session := { driver.session with state := .run } } := by
      simp only [Driver.step, if_pos waiting]
    refine ⟨[.wake], _, by rw [Machine.run_cons, stepped]; rfl, follows.step stepped, ?_, rfl⟩
    exact ⟨by simp, unfinished⟩
  · exact ⟨[], driver, rfl, follows, ⟨waiting, unfinished⟩, rfl⟩

/-- From wherever a task is, wake-ups and calls bring it to its end. -/
theorem Follows.finishes
    (follows : Follows perform total driver) :
    ∃ labels last, Machine.run (Driver.step perform) driver labels = some last ∧
      last.result = some .done := by
  induction left : total.suspensions + 1 - driver.calls generalizing driver with
  | zero =>
      refine ⟨[], driver, rfl, ?_⟩
      by_contra unfinished
      have bounded := follows.calls_le
      rw [if_neg unfinished] at bounded
      omega
  | succ left inductionHypothesis =>
      by_cases done : driver.result = some .done
      · exact ⟨[], driver, rfl, done⟩
      · obtain ⟨labels, awake, ran, followsAwake, callable, calls⟩ := follows.wakes done
        obtain ⟨fuel, next, stepped⟩ := followsAwake.returns callable
        obtain ⟨-, result, frames, session, -, rfl⟩ := step_call stepped
        obtain ⟨labels', last, ran', finished⟩ :=
          inductionHypothesis (followsAwake.step stepped) (by dsimp only; omega)
        refine ⟨labels ++ .call fuel :: labels', last, ?_, finished⟩
        rw [Machine.run_append, ran]
        change (Machine.run _ awake (.call fuel :: labels')) = _
        rw [Machine.run_cons, stepped]
        exact ran'

/-- What was done by a task that has not finished is a beginning of sequential
execution. -/
theorem Follows.trace_prefix
    (follows : Follows perform total driver) :
    driver.session.trace <+: total.trace := by
  obtain ⟨-, -, ⟨-, handle, frame, program, nexts, -, -, remains⟩ | ⟨-, -, -, -, same, -⟩⟩ :=
    follows
  · rw [← remains]
    exact List.prefix_append _ _
  · exact same ▸ List.prefix_rfl

theorem Follows.done_iff
    (follows : Follows perform total driver) :
    driver.result = some .done ↔ ∃ value, driver.frames.FinishedWith value := by
  obtain ⟨-, -, ⟨unfinished, suspended⟩ | ⟨done, -, finished, -⟩⟩ := follows
  · refine ⟨fun done => absurd done unfinished, fun ⟨value, finished⟩ => ?_⟩
    exact absurd finished (suspended.unfinished value)
  · exact ⟨fun _ => ⟨total.value, finished⟩, fun _ => done⟩

theorem Follows.ne_undefined
    (follows : Follows perform total driver)
    (callable : driver.Callable)
    (fuel : Nat) :
    (Session.system perform).oneStep fuel driver.frames driver.session ≠ .error .undefined := by
  rcases (outline perform total driver.calls driver.session.parks).oneStep_result
    (follows.resting callable) callable.1 fuel with stuck | ⟨_, _, _, returned, -⟩
  · simp [stuck]
  · simp [returned]

/-! ## The refinement -/

/-- The calls of `one_step` execute the program as sequential execution does. -/
structure ExecutesSequentially
    (perform : (effect : Effect) → World → Reply effect × World)
    (total : Outcome Effect Value World Reply)
    (driver : Driver Effect Value World Reply) : Prop where
  /-- The local steps, and the values given and received, so far. -/
  begun : driver.session.trace <+: total.trace
  /-- All of them, once the task is done. -/
  ended : driver.result = some .done →
    driver.session.trace = total.trace ∧ driver.session.world = total.world ∧
      driver.frames.FinishedWith total.value ∧ driver.calls = total.suspensions + 1
  /-- Only innermost unfinished coroutines are resumed. -/
  inOrder : ∀ resumption ∈ driver.session.resumed, resumption.1.Innermost resumption.2
  /-- `kDone` and `kWait` say what a call did. -/
  done : driver.result = some .done ↔ ∃ value, driver.frames.FinishedWith value
  shows : ∀ fuel next, step perform driver (.call fuel) = some next → Shows driver next
  /-- A call does nothing undefined, and it returns. -/
  defined : driver.Callable → ∀ fuel,
    (Session.system perform).oneStep fuel driver.frames driver.session ≠ .error .undefined
  returns : driver.Callable → ∃ fuel next, step perform driver (.call fuel) = some next
  /-- Calls and wake-ups can finish the task. -/
  finishes : ∃ labels last, Machine.run (step perform) driver labels = some last ∧
    last.result = some .done

/-- `one_step`, called whenever the task does not wait, with wake-ups whenever it
does, executes every program sequentially. -/
theorem executesSequentially
    (perform : (effect : Effect) → World → Reply effect × World)
    (program : Program Effect Value Reply)
    (world : World)
    {driver : Driver Effect Value World Reply}
    (reachable : Machine.Reachable (step perform) (start program world) driver) :
    ExecutesSequentially perform (program.eval perform world) driver := by
  have follows := follows_of_reachable reachable
  exact
    { begun := follows.trace_prefix
      ended := fun done => by
        obtain ⟨-, -, ⟨unfinished, -⟩ | ⟨-, -, finished, sameWorld, sameTrace, calls⟩⟩ := follows
        · exact absurd done unfinished
        · exact ⟨sameTrace, sameWorld, finished, calls⟩
      inOrder := follows.inOrder
      done := follows.done_iff
      shows := fun fuel next stepped => (follows.stepCall stepped).2
      defined := follows.ne_undefined
      returns := follows.returns
      finishes := follows.finishes }

/-- A task that awaits a child, which adds to a counter, parks and returns the
counter; then it adds the value to the counter. -/
def counting : Program Nat Nat fun _ => Nat :=
  .await (.perform 3 fun count => .park (.ret count)) fun value => .perform value .ret

/-- The local steps of `counting`. -/
def addToCounter (amount : Nat) (counter : Nat) : Nat × Nat := (counter + amount, counter + amount)

theorem executesSequentially_counting :
    ∃ driver, Machine.run (step addToCounter) (start counting 1)
        [.call 9, .call 9, .wake, .call 9] = some driver ∧
      driver.session.world = 8 ∧
      ExecutesSequentially addToCounter (counting.eval addToCounter 1) driver := by
  refine ⟨_, rfl, rfl, ?_⟩
  exact executesSequentially addToCounter counting 1 ⟨[.call 9, .call 9, .wake, .call 9], rfl⟩

end Driver

end Cppio
