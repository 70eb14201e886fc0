import Cppio.Reactor.Futures

/-!
# What futures return

A value is returned at most once, and is the one that an execution of the task returns.
Where no future is copied, no call of `get` terminates the program, and a call for a task
that has finished can return.
-/

namespace Cppio
namespace Futures

variable {User Own Local Key Outside Object : Type} [DecidableEq Key] [DecidableEq Object]
variable {surroundings : Surroundings User Own Local Key Outside}
variable {movedFrom : Result Own → Result Own} {outside : Outside}
variable {s next : Futures User Own Key Outside Object}

/-! ## Once -/

omit [DecidableEq Key] [DecidableEq Object] in
/-- A task has no answer, or one. -/
theorem Delivery.answers
    {task : TaskId} (delivery : s.Delivery task) :
    s.answers task = [] ∨
      ∃ value, s.reactor.value task = some value ∧ s.answers task = [value] := by
  cases delivery with
  | unclaimed _ _ _ none => exact Or.inl none
  | claimed _ _ _ _ _ _ none => exact Or.inl none
  | taken _ _ _ _ _ _ none => exact Or.inl none
  | delivered _ _ _ finished once => exact Or.inr ⟨_, finished, once⟩

/-- However the future objects of a task are copied and moved, and however the calls of `get`
on them interleave, at most one of the calls returns for the task.  What it returns is what
the task has returned to the reactor, never what a move has left of it. -/
theorem delivered_once
    (reachable : Machine.Reachable (step surroundings movedFrom) (initial outside) s)
    (task : TaskId) :
    s.answers task = [] ∨
      ∃ value, s.reactor.value task = some value ∧ s.answers task = [value] :=
  ((sound_of_reachable reachable).delivery task).answers

/-- A task whose future is asked for the value while the task runs. -/
def fetch : List (Label Bool Nat Int Bool) :=
  [.spawn (.user false) true, .copy true false, .reactor .call, .get true, .get true,
    .reactor .test, .reactor (.complete []), .reactor .proceed, .reactor (.process 5),
    .get true, .get true, .get true]

theorem delivered_once_fetch :
    ∃ last : Futures Bool Unit Nat Int Bool,
      Machine.run (step Reactor.napping id) (initial 0) fetch = some last ∧
      last.answers 0 ≠ [] ∧
      (last.answers 0 = [] ∨
        ∃ value, last.reactor.value 0 = some value ∧ last.answers 0 = [value]) := by
  obtain ⟨last, ran⟩ : ∃ last : Futures Bool Unit Nat Int Bool,
    Machine.run (step Reactor.napping id) (initial 0) fetch = some last := ⟨_, rfl⟩
  have some : last.answers 0 ≠ [] := by
    obtain rfl := Option.some.inj ran
    exact List.cons_ne_nil _ _
  exact ⟨last, ran, some, delivered_once ⟨fetch, ran⟩ 0⟩

/-! ## An execution's value -/

/-- What a step does to the reactor. -/
def Label.onReactor : Label User Key Outside Object → Option (Reactor.Label User Key Outside)
  | .reactor label => some label
  | .spawn start _ => some (.deed (.spawn start))
  | _ => none

theorem reactor_of_step
    {label : Label User Key Outside Object}
    (stepped : step surroundings movedFrom s label = some next) :
    match label.onReactor with
    | some label => Reactor.step surroundings s.reactor label = some next.reactor
    | none => next.reactor = s.reactor := by
  have steps := steps_of_step stepped
  unfold step at stepped
  split_ifs at stepped
  cases label with
  | reactor label =>
      obtain ⟨reactor, moved, rfl⟩ := Option.map_eq_some_iff.mp stepped
      exact moved
  | spawn start object =>
      dsimp only at stepped
      split_ifs at stepped
      obtain ⟨reactor, moved, rfl⟩ := Option.map_eq_some_iff.mp stepped
      exact moved
  | copy => cases steps; rfl
  | move => cases steps; rfl
  | get =>
      cases steps with
      | get gets => cases gets with | _ => rfl

/-- The reactor runs under the futures as it does alone. -/
theorem run_reactor
    {labels : List (Label User Key Outside Object)}
    (ran : Machine.run (step surroundings movedFrom) s labels = some next) :
    Machine.run (Reactor.step surroundings) s.reactor (labels.filterMap Label.onReactor) =
      some next.reactor := by
  induction labels generalizing s with
  | nil =>
      obtain rfl := Option.some.inj ran
      rfl
  | cons label labels inductionHypothesis =>
      rw [Machine.run_cons, Option.bind_eq_some_iff] at ran
      obtain ⟨middle, stepped, later⟩ := ran
      have onReactor := reactor_of_step stepped
      rw [List.filterMap_cons]
      cases known : label.onReactor with
      | none =>
          rw [known] at onReactor
          dsimp only at onReactor ⊢
          rw [← onReactor]
          exact inductionHypothesis later
      | some label =>
          rw [known] at onReactor
          dsimp only at onReactor ⊢
          rw [Machine.run_cons, onReactor]
          exact inductionHypothesis later

/-- What `get` returns for a spawned task is what an execution of the task's own code
returns, with the effects that the task has had on the run. -/
theorem answers_executions
    {first last : Futures User Own Key Outside Object} {start : Start User} {object : Object}
    {labels : List (Label User Key Outside Object)}
    (reachable : Machine.Reachable (step surroundings movedFrom) (initial outside) s)
    (spawned : step surroundings movedFrom s (.spawn start object) = some first)
    (ran : Machine.run (step surroundings movedFrom) first labels = some last) :
    ∀ value ∈ last.answers s.reactor.spawned,
      Recording.Recorded surroundings.program start.code
        (Reactor.part s.reactor.spawned
          (Reactor.log surroundings first.reactor (labels.filterMap Label.onReactor)))
        (some value) := by
  intro value present
  have sound := sound_of_reachable reachable
  obtain ⟨before, ranBefore⟩ := reachable
  have reachable : Machine.Reachable (Reactor.step surroundings) (Reactor.initial outside)
      first.reactor := by
    refine ⟨before.filterMap Label.onReactor ++ [.deed (.spawn start)], ?_⟩
    have spawnedThere : Reactor.step surroundings s.reactor (.deed (.spawn start)) =
        some first.reactor := reactor_of_step spawned
    rw [Machine.run_append, show Machine.run _ (Reactor.initial outside) _ = some s.reactor from
      run_reactor ranBefore]
    simp [Machine.run_cons, spawnedThere]
  have fresh : Reactor.Fresh start s.reactor.spawned first.reactor := by
    have state : s.reactor.state s.reactor.spawned = .run := by
      cases sound.disciplined.standing s.reactor.spawned with
      | unborn _ _ state => exact state
      | ready born => exact absurd born (Nat.lt_irrefl _)
      | parked born => exact absurd born (Nat.lt_irrefl _)
      | done born => exact absurd born (Nat.lt_irrefl _)
    cases steps_of_step spawned with
    | spawn => exact ⟨Nat.lt_succ_self _, Function.update_self .., state⟩
  have tracks := Reactor.tracks_of_fresh reachable fresh (run_reactor ran)
  have soundLast : last.Sound :=
    Machine.invariant_of_reachable
      (fun _ _ _ sound stepped => sound.steps (steps_of_step stepped))
      (sound.steps (steps_of_step spawned)) ⟨labels, ran⟩
  -- The answer is the value that the task has returned.
  have finished : last.reactor.value s.reactor.spawned = some value := by
    rcases (soundLast.delivery s.reactor.spawned).answers with none | ⟨other, finished, once⟩
    · rw [none] at present
      cases present
    · rw [once] at present
      obtain rfl := List.mem_singleton.mp present
      exact finished
  obtain ⟨other, finishedWith, recorded⟩ := tracks.done (Code.parksOnce_code start)
    ⟨value, Reactor.value_eq_some.mp finished⟩
  obtain rfl : other = value :=
    Option.some.inj ((Reactor.value_eq_some.mpr finishedWith).symm.trans finished)
  exact recorded

/-- Both tasks run to their ends, and then the future of the first is asked. -/
def fetchDelegated : List (Label Nat Nat Int Bool) :=
  .spawn (.user 0) false :: (Reactor.delegated.drop 2 ++ Reactor.delegatedAwake).map .reactor ++
    List.replicate 5 (.get true)

theorem answers_executions_fetchDelegated :
    ∃ (first last : Futures Nat Nat Nat Int Bool) (record : List (Occurs Nat Nat Unit)),
      step Reactor.delegating id (initial 0) (.spawn (.user 1) true) = some first ∧
      Machine.run (step Reactor.delegating id) first fetchDelegated = some last ∧
      last.answers 0 = [.own 6] ∧
      record = [.waited, .performed (.startTimer 5) (), .performed (.perform ()) 6] ∧
      Recording.Recorded Reactor.delegating.program (Start.user 1).code record
        (some (.own 6)) := by
  obtain ⟨first, last, spawned, ran, answers, record⟩ :
      ∃ first last : Futures Nat Nat Nat Int Bool,
        step Reactor.delegating id (initial 0) (.spawn (.user 1) true) = some first ∧
        Machine.run (step Reactor.delegating id) first fetchDelegated = some last ∧
        last.answers 0 = [.own 6] ∧
        Reactor.part 0 (Reactor.log Reactor.delegating first.reactor
          (fetchDelegated.filterMap Label.onReactor)) =
            [.waited, .performed (.startTimer 5) (), .performed (.perform ()) 6] :=
    ⟨_, _, rfl, rfl, rfl, rfl⟩
  have present : .own 6 ∈ last.answers 0 := answers ▸ List.mem_singleton_self _
  exact ⟨first, last, _, spawned, ran, answers, record,
    answers_executions ⟨[], rfl⟩ spawned ran (.own 6) present⟩

/-! ## Without copies -/

def Label.isCopy : Label User Key Outside Object → Bool
  | .copy _ _ => true
  | _ => false

/-- No two future objects are of one task. -/
structure Distinct (s : Futures User Own Key Outside Object) : Prop where
  unique : ∀ {first second task}, s.task first = some task → s.task second = some task →
    first = second
  /-- The call that has retrieved the task's future is on the object. -/
  fresh : ∀ {object task}, s.task object = some task → s.retrieved task = true →
    (s.pc object).claim = some task
  running : s.terminated = false

omit [DecidableEq Key] [DecidableEq Object] in
theorem distinct_initial (outside : Outside) :
    Distinct (initial outside : Futures User Own Key Outside Object) where
  unique held := by cases held
  fresh held := by cases held
  running := rfl

omit [DecidableEq Object] in
theorem claim_of_isIdle {pc : GetPc (Result Own)} (idle : pc.isIdle = true) : pc.claim = none := by
  cases pc with
  | idle => rfl
  | _ => cases idle

omit [DecidableEq Key] in
/-- An object may be given a task that no other object has and whose future was not
retrieved. -/
theorem Distinct.setTask
    {object : Object} {task : Option TaskId} (distinct : s.Distinct)
    (idle : (s.pc object).isIdle = true)
    (new : ∀ {of}, task = some of →
      s.retrieved of = false ∧ ∀ other, other ≠ object → s.task other ≠ some of) :
    (s.setTask object task).Distinct where
  unique {first second of} held held' := by
    by_cases same : first = object
    · by_cases same' : second = object
      · exact same.trans same'.symm
      · subst same
        rw [setTask_self] at held
        rw [setTask_of_ne s same'] at held'
        exact absurd held' ((new held).2 second same')
    · rw [setTask_of_ne s same] at held
      by_cases same' : second = object
      · subst same'
        rw [setTask_self] at held'
        exact absurd held ((new held').2 first same)
      · rw [setTask_of_ne s same'] at held'
        exact distinct.unique held held'
  fresh {other of} held retrieved := by
    by_cases same : other = object
    · subst same
      rw [setTask_self] at held
      exact absurd ((new held).1.symm.trans retrieved) Bool.false_ne_true
    · rw [setTask_of_ne s same] at held
      exact distinct.fresh held retrieved
  running := distinct.running

omit [DecidableEq Key] in
theorem Distinct.gets
    {object : Object} (distinct : s.Distinct) (sound : s.Sound)
    (gets : s.Gets movedFrom object next) : next.Distinct := by
  -- The call goes on with the claim that it has.
  have goes : ∀ {pc : GetPc (Result Own)}, (s.pc object).claim = pc.claim →
      ∀ {other of}, s.task other = some of → s.retrieved of = true →
        (Function.update s.pc object pc other).claim = some of := by
    intro pc same other of held retrieved
    have claims := distinct.fresh held retrieved
    by_cases here : other = object
    · subst here
      rw [Function.update_self, ← same]
      exact claims
    · rw [Function.update_of_ne here]
      exact claims
  cases gets with
  | null here null => exact ⟨distinct.unique, distinct.fresh, distinct.running⟩
  | enter here holds => exact ⟨distinct.unique, goes (by rw [here]; rfl), distinct.running⟩
  | terminate here again =>
      have claims := distinct.fresh (sound.held (by rw [here]; rfl)) again
      rw [here] at claims
      cases claims
  | @retrieve task here first =>
      have held : s.task object = some task := sound.held (by rw [here]; rfl)
      refine ⟨distinct.unique, fun {other of} held' retrieved => ?_, distinct.running⟩
      by_cases same : of = task
      · subst same
        obtain rfl := distinct.unique held held'
        exact congrArg GetPc.claim (goto_self _ _ _)
      · have different : other ≠ object := by
          rintro rfl
          exact same (Option.some.inj (held'.symm.trans held))
        rw [goto_of_ne _ different]
        exact distinct.fresh held' ((Function.update_of_ne same _ _).symm.trans retrieved)
  | notify here finished => exact ⟨distinct.unique, goes (by rw [here]; rfl), distinct.running⟩
  | take here finished => exact ⟨distinct.unique, goes (by rw [here]; rfl), distinct.running⟩
  | finish here =>
      have elsewhere : ∀ {other of}, (s.setTask object none).task other = some of →
          other ≠ object ∧ s.task other = some of := by
        intro other of held
        have different : other ≠ object := by
          rintro rfl
          cases (setTask_self s _ none).symm.trans held
        exact ⟨different, (setTask_of_ne s different none).symm.trans held⟩
      refine ⟨fun held held' => distinct.unique (elsewhere held).2 (elsewhere held').2,
        fun held retrieved => ?_, distinct.running⟩
      rw [goto_of_ne _ (elsewhere held).1]
      exact distinct.fresh (elsewhere held).2 retrieved

theorem Distinct.steps
    {label : Label User Key Outside Object} (distinct : s.Distinct) (sound : s.Sound)
    (noCopy : label.isCopy = false) (steps : s.Steps surroundings movedFrom label next) :
    next.Distinct := by
  cases steps with
  | reactor moves => exact ⟨distinct.unique, distinct.fresh, distinct.running⟩
  | spawn idle start =>
      have spawned : Distinct { s with reactor := s.reactor.spawn start } :=
        ⟨distinct.unique, distinct.fresh, distinct.running⟩
      refine spawned.setTask idle fun {of} same => ?_
      obtain rfl : s.reactor.spawned = of := Option.some.inj same
      refine ⟨?_, fun other _ held => Nat.lt_irrefl _ (sound.born held)⟩
      cases sound.delivery s.reactor.spawned with
      | unclaimed _ first => exact first
      | claimed _ _ _ born => exact absurd born (Nat.lt_irrefl _)
      | taken _ _ _ born => exact absurd born (Nat.lt_irrefl _)
      | delivered _ born => exact absurd born (Nat.lt_irrefl _)
  | copy => cases noCopy
  | @move source target idle idle' =>
      have emptied : (s.setTask source none).Distinct :=
        distinct.setTask idle fun {_} same => by cases same
      refine emptied.setTask idle' fun {of} held => ⟨?_, fun other _ held' => ?_⟩
      · by_contra retrieved
        have claims := distinct.fresh held (Bool.eq_true_of_not_eq_false retrieved)
        rw [claim_of_isIdle idle] at claims
        cases claims
      · have different : other ≠ source := by
          rintro rfl
          cases (setTask_self s _ none).symm.trans held'
        rw [setTask_of_ne s different] at held'
        exact different (distinct.unique held' held)
  | get gets => exact distinct.gets sound gets

theorem distinct_of_noCopy
    {labels : List (Label User Key Outside Object)}
    (noCopy : Machine.AllSteps (step surroundings movedFrom) (fun _ label => label.isCopy = false)
      (initial outside) labels)
    (ran : Machine.run (step surroundings movedFrom) (initial outside) labels = some s) :
    s.Sound ∧ s.Distinct := by
  have preserved : ∀ (s : Futures User Own Key Outside Object)
      (label : Label User Key Outside Object) next, s.Sound ∧ s.Distinct →
      label.isCopy = false → step surroundings movedFrom s label = some next →
      next.Sound ∧ next.Distinct := fun _ _ _ ⟨sound, distinct⟩ noCopy stepped =>
    ⟨sound.steps (steps_of_step stepped), distinct.steps sound noCopy (steps_of_step stepped)⟩
  exact Machine.invariant_of_allSteps preserved
    ⟨sound_initial outside, distinct_initial outside⟩ noCopy ran

/-- So many steps of the call on the object return the task's value. -/
def Returns
    (surroundings : Surroundings User Own Local Key Outside)
    (movedFrom : Result Own → Result Own)
    (s : Futures User Own Key Outside Object)
    (object : Object) (task : TaskId) (value : Result Own) (count : Nat) : Prop :=
  ∃ last, Machine.run (step surroundings movedFrom) s (List.replicate count (.get object)) =
      some last ∧
    last.pc object = .idle ∧ last.returned = s.returned ++ [some (task, value)]

section

variable {object : Object} {task : TaskId} {value : Result Own} {count : Nat}

theorem Returns.cons
    (running : s.terminated = false) (got : s.get movedFrom object = some next)
    (same : next.returned = s.returned)
    (returns : Returns surroundings movedFrom next object task value count) :
    Returns surroundings movedFrom s object task value (count + 1) := by
  obtain ⟨last, ran, idle, returned⟩ := returns
  refine ⟨last, ?_, idle, by rw [returned, same]⟩
  have stepped : step surroundings movedFrom s (.get object) = some next := by
    simp [step, running, got]
  rw [List.replicate_succ, Machine.run_cons, stepped]
  exact ran

theorem returns_of_taken
    (running : s.terminated = false) (here : s.pc object = .taken task value) :
    Returns surroundings movedFrom s object task value 1 := by
  refine ⟨{ s.setTask object none with returned := s.returned ++ [some (task, value)] }.goto
    object .idle, ?_, goto_self _ _ _, rfl⟩
  simp [Machine.run_cons, step, running, get, here]

theorem returns_of_notified
    (running : s.terminated = false) (here : s.pc object = .notified task)
    (unmoved : s.moved task = false) (finished : s.reactor.value task = some value) :
    Returns surroundings movedFrom s object task value 2 := by
  have got : s.get movedFrom object = some ({ s with
      moved := Function.update s.moved task true }.goto object (.taken task value)) := by
    simp [get, here, finished, unmoved]
  exact .cons running got rfl (returns_of_taken running (goto_self _ _ _))

theorem returns_of_waiting
    (running : s.terminated = false) (here : s.pc object = .waiting task)
    (unmoved : s.moved task = false) (finished : s.reactor.value task = some value) :
    Returns surroundings movedFrom s object task value 3 := by
  have got : s.get movedFrom object = some (s.goto object (.notified task)) := by
    simp [get, here, finished]
  exact .cons running got rfl (returns_of_notified running (goto_self _ _ _) unmoved finished)

theorem returns_of_entered
    (running : s.terminated = false) (here : s.pc object = .entered task)
    (first : s.retrieved task = false) (unmoved : s.moved task = false)
    (finished : s.reactor.value task = some value) :
    Returns surroundings movedFrom s object task value 4 := by
  have got : s.get movedFrom object = some ({ s with
      retrieved := Function.update s.retrieved task true }.goto object (.waiting task)) := by
    simp [get, here, first]
  exact .cons running got rfl (returns_of_waiting running (goto_self _ _ _) unmoved finished)

theorem returns_of_idle
    (running : s.terminated = false) (here : s.pc object = .idle)
    (holds : s.task object = some task)
    (first : s.retrieved task = false) (unmoved : s.moved task = false)
    (finished : s.reactor.value task = some value) :
    Returns surroundings movedFrom s object task value 5 := by
  have got : s.get movedFrom object = some (s.goto object (.entered task)) := by
    simp [get, here, holds]
  exact .cons running got rfl
    (returns_of_entered running (goto_self _ _ _) first unmoved finished)

end

/-- While no future is copied, no call of `get` terminates the program; and wherever the call
on an object is, once the object's task has finished, at most five more steps of the call
return the task's value, without a step of the reactor or of another thread. -/
theorem get_returns
    {labels : List (Label User Key Outside Object)}
    (noCopy : Machine.AllSteps (step surroundings movedFrom) (fun _ label => label.isCopy = false)
      (initial outside) labels)
    (ran : Machine.run (step surroundings movedFrom) (initial outside) labels = some s) :
    s.terminated = false ∧
      ∀ object task value, s.task object = some task → s.reactor.value task = some value →
        ∃ count ≤ 5, Returns surroundings movedFrom s object task value count := by
  obtain ⟨sound, distinct⟩ := distinct_of_noCopy noCopy ran
  refine ⟨distinct.running, fun object task value holds finished => ?_⟩
  have running := distinct.running
  -- Without a claim of the call, the task's future was not retrieved.
  have unclaimed : (s.pc object).claim = none →
      s.retrieved task = false ∧ s.moved task = false := by
    intro none
    cases sound.delivery task with
    | unclaimed _ first unmoved => exact ⟨first, unmoved⟩
    | claimed _ _ _ _ retrieved => cases none.symm.trans (distinct.fresh holds retrieved)
    | taken _ _ _ _ retrieved => cases none.symm.trans (distinct.fresh holds retrieved)
    | delivered _ _ retrieved => cases none.symm.trans (distinct.fresh holds retrieved)
  -- A call that has retrieved it is at the value.
  have claimed : (s.pc object).claim = some task →
      (s.pc object = .waiting task ∨ s.pc object = .notified task) ∧ s.moved task = false ∨
        ∃ value, s.pc object = .taken task value ∧ s.reactor.value task = some value :=
    fun claims => ((sound.delivery task).of_claim claims).1
  have own : ∀ {of}, (s.pc object).task = some of → of = task := fun same =>
    Option.some.inj ((sound.held same).symm.trans holds)
  cases here : s.pc object with
  | idle =>
      obtain ⟨first, unmoved⟩ := unclaimed (by rw [here]; rfl)
      exact ⟨5, le_rfl, returns_of_idle running here holds first unmoved finished⟩
  | entered of =>
      obtain rfl : of = task := own (by rw [here]; rfl)
      obtain ⟨first, unmoved⟩ := unclaimed (by rw [here]; rfl)
      exact ⟨4, by decide, returns_of_entered running here first unmoved finished⟩
  | waiting of =>
      obtain rfl : of = task := own (by rw [here]; rfl)
      have unmoved : s.moved of = false := by simpa [here] using claimed (by rw [here]; rfl)
      exact ⟨3, by decide, returns_of_waiting running here unmoved finished⟩
  | notified of =>
      obtain rfl : of = task := own (by rw [here]; rfl)
      have unmoved : s.moved of = false := by simpa [here] using claimed (by rw [here]; rfl)
      exact ⟨2, by decide, returns_of_notified running here unmoved finished⟩
  | taken of taken =>
      obtain rfl : of = task := own (by rw [here]; rfl)
      have same : s.reactor.value of = some taken := by
        simpa [here] using claimed (by rw [here]; rfl)
      obtain rfl : taken = value := Option.some.inj (same.symm.trans finished)
      exact ⟨1, by decide, returns_of_taken running here⟩

/-- A call of `get` on a future that has the task, until the task has finished. -/
def fetchMoved : List (Label Bool Nat Int Bool) :=
  [.spawn (.user false) true, .move true false, .reactor .call, .get false, .get false,
    .reactor .test, .reactor (.complete []), .reactor .proceed, .reactor (.process 5)]

theorem get_returns_fetchMoved :
    ∃ last : Futures Bool Unit Nat Int Bool,
      Machine.run (step Reactor.napping id) (initial 0) fetchMoved = some last ∧
      ∃ value, ∃ count ≤ 5, Returns Reactor.napping id last false 0 value count := by
  obtain ⟨last, ran⟩ : ∃ last : Futures Bool Unit Nat Int Bool,
    Machine.run (step Reactor.napping id) (initial 0) fetchMoved = some last := ⟨_, rfl⟩
  have noCopy : Machine.AllSteps (step Reactor.napping id)
      (fun _ label => label.isCopy = false) (initial 0 : Futures Bool Unit Nat Int Bool)
      fetchMoved :=
    fun _ _ => ⟨rfl, fun _ _ => ⟨rfl, fun _ _ => ⟨rfl, fun _ _ => ⟨rfl, fun _ _ => ⟨rfl,
      fun _ _ => ⟨rfl, fun _ _ => ⟨rfl, fun _ _ => ⟨rfl, fun _ _ => ⟨rfl, trivial⟩⟩⟩⟩⟩⟩⟩⟩⟩
  have holds : last.task false = some 0 := by
    obtain rfl := Option.some.inj ran
    rfl
  obtain ⟨value, finished⟩ : ∃ value, last.reactor.value 0 = some value := by
    obtain rfl := Option.some.inj ran
    exact ⟨_, rfl⟩
  exact ⟨last, ran, value, (get_returns noCopy ran).2 false 0 value holds finished⟩

end Futures
end Cppio
