import Cppio.Reactor.Parked

/-!
# Futures

`spawn` returns a future, and other threads wait with it for the value of the task.  The
objects are copied and moved, and `get` goes in steps, between which the reactor and the
other threads go on.
-/

namespace Cppio

/-- Where the call of `get` on a future object is. -/
inductive GetPc (Value : Type)
  /-- There is none. -/
  | idle
  /-- After the test of `m_task`, before `get_future` of `m_notifier`. -/
  | entered (task : TaskId)
  /-- In the `get` of what `get_future` has returned. -/
  | waiting (task : TaskId)
  /-- Before `await_resume`. -/
  | notified (task : TaskId)
  /-- Before `m_task = nullptr`. -/
  | taken (task : TaskId) (value : Value)

namespace GetPc

variable {Value : Type}

def isIdle : GetPc Value → Bool
  | .idle => true
  | _ => false

/-- The task whose value the call is to return. -/
def task : GetPc Value → Option TaskId
  | .idle => none
  | .entered task => some task
  | .waiting task => some task
  | .notified task => some task
  | .taken task _ => some task

/-- The task whose `m_notifier` has given its future to the call. -/
def claim : GetPc Value → Option TaskId
  | .waiting task => some task
  | .notified task => some task
  | .taken task _ => some task
  | _ => none

end GetPc

/-- A reactor and the future objects of its tasks. -/
structure Futures (User Own Key Outside Object : Type) where
  reactor : Reactor User Own Key Outside
  /-- `m_task`. -/
  task : Object → Option TaskId
  pc : Object → GetPc (Result Own)
  /-- `get_future` of the task's `m_notifier` was called. -/
  retrieved : TaskId → Bool
  /-- The task's `m_value` was moved from. -/
  moved : TaskId → Bool
  /-- What calls of `get` have returned, with the task; `none` is `{}`. -/
  returned : List (Option (TaskId × Result Own))
  /-- `std::terminate` was called. -/
  terminated : Bool

namespace Reactor

variable {User Own Key Outside : Type}

/-- What the task has returned; `m_notifier` is set with it. -/
def value (s : Reactor User Own Key Outside) (task : TaskId) : Option (Result Own) :=
  match (s.frames task).frame rootHandle with
  | some frame => if frame.done then frame.value else none
  | none => none

theorem value_eq_some {s : Reactor User Own Key Outside} {task : TaskId} {result : Result Own} :
    s.value task = some result ↔ (s.frames task).FinishedWith result := by
  unfold value Frames.FinishedWith Frame.done
  cases (s.frames task).frame rootHandle with
  | none => simp
  | some frame =>
      obtain ⟨inner, outer, value, point⟩ := frame
      cases point with
      | _ => simp

end Reactor

namespace Reactor

variable {User Own Local Key Outside : Type} [DecidableEq Key]

/-- What a task has returned stays. -/
theorem value_moves
    {surroundings : Surroundings User Own Local Key Outside}
    {s next : Reactor User Own Key Outside} {label : Label User Key Outside} {task : TaskId}
    {result : Result Own} (disciplined : Disciplined s) (born : task < s.spawned)
    (returned : s.value task = some result) (moves : Moves surroundings s label next) :
    next.value task = some result := by
  have finished := value_eq_some.mp returned
  suffices same : next.frames task = s.frames task by
    rw [value_eq_some, same]
    exact finished
  cases disciplined.standing task with
  | unborn unborn => exact absurd born (Nat.not_lt_of_le unborn)
  | ready _ _ suspended => exact absurd finished (suspended.unfinished result)
  | parked _ _ suspended => exact absurd finished (suspended.unfinished result)
  | done _ _ _ absent none =>
      have quiet : ¬Fires surroundings task s label := fun fires =>
        Nat.ne_of_gt (pending_of_fires fires) (Nat.add_eq_zero_iff.mp none).1
      have stands : Stands task (s.frames task) (s.state task) s := ⟨born, rfl, rfl⟩
      exact (stands.moves (List.count_eq_zero.mp absent) quiet moves).1.frames

end Reactor

namespace Futures

variable {User Own Local Key Outside Object : Type} [DecidableEq Object]

/-- A reactor without futures. -/
def initial (outside : Outside) : Futures User Own Key Outside Object where
  reactor := Reactor.initial outside
  task _ := none
  pc _ := .idle
  retrieved _ := false
  moved _ := false
  returned := []
  terminated := false

section

variable (s : Futures User Own Key Outside Object)

def setTask (object : Object) (task : Option TaskId) : Futures User Own Key Outside Object :=
  { s with task := Function.update s.task object task }

def goto (object : Object) (pc : GetPc (Result Own)) : Futures User Own Key Outside Object :=
  { s with pc := Function.update s.pc object pc }

@[simp] theorem setTask_self (object : Object) (task : Option TaskId) :
    (s.setTask object task).task object = task := Function.update_self ..

theorem setTask_of_ne {object other : Object} (different : other ≠ object)
    (task : Option TaskId) : (s.setTask object task).task other = s.task other :=
  Function.update_of_ne different _ _

@[simp] theorem goto_self (object : Object) (pc : GetPc (Result Own)) :
    (s.goto object pc).pc object = pc := Function.update_self ..

theorem goto_of_ne {object other : Object} (different : other ≠ object)
    (pc : GetPc (Result Own)) : (s.goto object pc).pc other = s.pc other :=
  Function.update_of_ne different _ _

/-- The next step of `future<T>::get`; a value that was moved from is left as `movedFrom`
says. -/
def get (movedFrom : Result Own → Result Own) (object : Object) :
    Option (Futures User Own Key Outside Object) :=
  match s.pc object with
  | .idle =>
      match s.task object with
      | none => some { s with returned := s.returned ++ [none] }
      | some task => some (s.goto object (.entered task))
  | .entered task =>
      if s.retrieved task then some { s with terminated := true }
      else some ({ s with retrieved := Function.update s.retrieved task true }.goto object
        (.waiting task))
  | .waiting task =>
      if (s.reactor.value task).isSome then some (s.goto object (.notified task)) else none
  | .notified task =>
      (s.reactor.value task).map fun value =>
        { s with moved := Function.update s.moved task true }.goto object
          (.taken task (if s.moved task then movedFrom value else value))
  | .taken task value =>
      some ({ s.setTask object none with returned := s.returned ++ [some (task, value)] }.goto
        object .idle)

/-- The steps of a call of `get`. -/
inductive Gets (movedFrom : Result Own → Result Own) (object : Object) :
    Futures User Own Key Outside Object → Prop
  | null (here : s.pc object = .idle) (null : s.task object = none) :
      Gets movedFrom object { s with returned := s.returned ++ [none] }
  | enter {task : TaskId} (here : s.pc object = .idle) (holds : s.task object = some task) :
      Gets movedFrom object (s.goto object (.entered task))
  | terminate {task : TaskId} (here : s.pc object = .entered task)
      (again : s.retrieved task = true) :
      Gets movedFrom object { s with terminated := true }
  | retrieve {task : TaskId} (here : s.pc object = .entered task)
      (first : s.retrieved task = false) :
      Gets movedFrom object
        ({ s with retrieved := Function.update s.retrieved task true }.goto object (.waiting task))
  | notify {task : TaskId} {value : Result Own} (here : s.pc object = .waiting task)
      (finished : s.reactor.value task = some value) :
      Gets movedFrom object (s.goto object (.notified task))
  | take {task : TaskId} {value : Result Own} (here : s.pc object = .notified task)
      (finished : s.reactor.value task = some value) :
      Gets movedFrom object
        ({ s with moved := Function.update s.moved task true }.goto object
          (.taken task (if s.moved task then movedFrom value else value)))
  | finish {task : TaskId} {value : Result Own} (here : s.pc object = .taken task value) :
      Gets movedFrom object
        ({ s.setTask object none with
          returned := s.returned ++ [some (task, value)] }.goto object .idle)

variable {s} {next : Futures User Own Key Outside Object}
variable {movedFrom : Result Own → Result Own}

theorem gets_of_get
    {object : Object} (got : s.get movedFrom object = some next) :
    s.Gets movedFrom object next := by
  unfold get at got
  split at got
  · next here =>
      split at got
      · next null =>
          obtain rfl := Option.some.inj got
          exact .null here null
      · next task holds =>
          obtain rfl := Option.some.inj got
          exact .enter here holds
  · next task here =>
      split_ifs at got with again
      · obtain rfl := Option.some.inj got
        exact .terminate here again
      · obtain rfl := Option.some.inj got
        exact .retrieve here (Bool.eq_false_of_not_eq_true again)
  · next task here =>
      split_ifs at got with finished
      obtain rfl := Option.some.inj got
      obtain ⟨value, finished⟩ := Option.isSome_iff_exists.mp finished
      exact .notify here finished
  · next task here =>
      obtain ⟨value, finished, rfl⟩ := Option.map_eq_some_iff.mp got
      exact .take here finished
  · next task value here =>
      obtain rfl := Option.some.inj got
      exact .finish here

/-! ## What a task has delivered -/

/-- The value of an answer, if it is of the task. -/
def valueOf (task : TaskId) : Option (TaskId × Result Own) → Option (Result Own)
  | some (other, value) => if other = task then some value else none
  | none => none

/-- What calls of `get` have returned for a task. -/
def answers (s : Futures User Own Key Outside Object) (task : TaskId) : List (Result Own) :=
  s.returned.filterMap (valueOf task)

/-- How far the value of a task has come. -/
inductive Delivery (s : Futures User Own Key Outside Object) (task : TaskId) : Prop
  | unclaimed (free : ∀ object, (s.pc object).claim ≠ some task)
      (first : s.retrieved task = false) (unmoved : s.moved task = false)
      (none : s.answers task = [])
  | claimed (object : Object)
      (here : s.pc object = .waiting task ∨ s.pc object = .notified task)
      (alone : ∀ other, (s.pc other).claim = some task → other = object)
      (born : task < s.reactor.spawned)
      (retrieved : s.retrieved task = true) (unmoved : s.moved task = false)
      (none : s.answers task = [])
  | taken {value : Result Own} (object : Object) (here : s.pc object = .taken task value)
      (alone : ∀ other, (s.pc other).claim = some task → other = object)
      (born : task < s.reactor.spawned) (retrieved : s.retrieved task = true)
      (finished : s.reactor.value task = some value) (none : s.answers task = [])
  | delivered {value : Result Own} (free : ∀ object, (s.pc object).claim ≠ some task)
      (born : task < s.reactor.spawned) (retrieved : s.retrieved task = true)
      (finished : s.reactor.value task = some value) (once : s.answers task = [value])

/-- Nothing has changed for what a task delivers. -/
structure SameFor (task : TaskId) (s next : Futures User Own Key Outside Object) : Prop where
  pc : ∀ object, (next.pc object).claim = some task ∨ (s.pc object).claim = some task →
    next.pc object = s.pc object
  retrieved : next.retrieved task = s.retrieved task
  moved : next.moved task = s.moved task
  answers : next.answers task = s.answers task
  born : task < s.reactor.spawned → task < next.reactor.spawned
  value : ∀ {value}, task < s.reactor.spawned → s.reactor.value task = some value →
    next.reactor.value task = some value

omit [DecidableEq Object] in
theorem Delivery.congr
    {task : TaskId} (delivery : s.Delivery task) (same : SameFor task s next) :
    next.Delivery task := by
  have stays : ∀ {object}, (next.pc object).claim = some task →
      (s.pc object).claim = some task := fun claims => by
    rw [← same.pc _ (Or.inl claims)]
    exact claims
  cases delivery with
  | unclaimed free first unmoved none =>
      exact .unclaimed (fun object claims => free object (stays claims))
        (same.retrieved.trans first) (same.moved.trans unmoved) (same.answers.trans none)
  | claimed object here alone born retrieved unmoved none =>
      have claims : (s.pc object).claim = some task := by
        rcases here with here | here <;> (rw [here]; rfl)
      refine .claimed object ?_ (fun other claims => alone other (stays claims))
        (same.born born) (same.retrieved.trans retrieved) (same.moved.trans unmoved)
        (same.answers.trans none)
      rw [same.pc object (Or.inr claims)]
      exact here
  | taken object here alone born retrieved value none =>
      have claims : (s.pc object).claim = some task := by
        rw [here]
        rfl
      exact .taken object ((same.pc object (Or.inr claims)).trans here)
        (fun other claims => alone other (stays claims)) (same.born born)
        (same.retrieved.trans retrieved) (same.value born value) (same.answers.trans none)
  | delivered free born retrieved value once =>
      exact .delivered (fun object claims => free object (stays claims)) (same.born born)
        (same.retrieved.trans retrieved) (same.value born value) (same.answers.trans once)

omit [DecidableEq Object] in
/-- A call that has claimed the value of a task is the only one, and before its answer there
is none. -/
theorem Delivery.of_claim
    {task : TaskId} (delivery : s.Delivery task) {object : Object}
    (claims : (s.pc object).claim = some task) :
    ((s.pc object = .waiting task ∨ s.pc object = .notified task) ∧ s.moved task = false ∨
        ∃ value, s.pc object = .taken task value ∧ s.reactor.value task = some value) ∧
      (∀ other, (s.pc other).claim = some task → other = object) ∧
      task < s.reactor.spawned ∧ s.retrieved task = true ∧ s.answers task = [] := by
  cases delivery with
  | unclaimed free => exact absurd claims (free object)
  | claimed other here alone born retrieved unmoved none =>
      obtain rfl := alone object claims
      exact ⟨Or.inl ⟨here, unmoved⟩, alone, born, retrieved, none⟩
  | taken other here alone born retrieved value none =>
      obtain rfl := alone object claims
      exact ⟨Or.inr ⟨_, here, value⟩, alone, born, retrieved, none⟩
  | delivered free => exact absurd claims (free object)

/-- A call of `get` is on one object. -/
theorem Gets.elsewhere
    {object other : Object} (gets : s.Gets movedFrom object next) (different : other ≠ object) :
    next.pc other = s.pc other := by
  cases gets with
  | null => rfl
  | terminate => rfl
  | _ => exact Function.update_of_ne different _ _

/-- A step of `get` is about the task that the call claims, before it or after it. -/
theorem Gets.sameFor
    {object : Object} {task : TaskId} (gets : s.Gets movedFrom object next)
    (before : (s.pc object).claim ≠ some task) (after : (next.pc object).claim ≠ some task) :
    SameFor task s next := by
  have pc : ∀ other, (next.pc other).claim = some task ∨ (s.pc other).claim = some task →
      next.pc other = s.pc other := by
    intro other claims
    refine gets.elsewhere ?_
    rintro rfl
    exact claims.elim after before
  cases gets with
  | null here null => exact ⟨pc, rfl, rfl, by simp [answers, valueOf], id, fun _ => id⟩
  | enter here holds => exact ⟨pc, rfl, rfl, rfl, id, fun _ => id⟩
  | terminate here again => exact ⟨pc, rfl, rfl, rfl, id, fun _ => id⟩
  | @retrieve of here first =>
      have different : task ≠ of := by
        rintro rfl
        exact after (by simp [goto, GetPc.claim])
      exact ⟨pc, Function.update_of_ne different _ _, rfl, rfl, id, fun _ => id⟩
  | notify here finished => exact ⟨pc, rfl, rfl, rfl, id, fun _ => id⟩
  | @take of _ here finished =>
      have different : task ≠ of := by
        rintro rfl
        exact before (by rw [here]; rfl)
      exact ⟨pc, rfl, Function.update_of_ne different _ _, rfl, id, fun _ => id⟩
  | @finish of _ here =>
      have different : of ≠ task := by
        rintro rfl
        exact before (by rw [here]; rfl)
      refine ⟨pc, rfl, rfl, ?_, id, fun _ => id⟩
      simp [answers, valueOf, goto, different]

/-- What holds between any two steps. -/
structure Sound (s : Futures User Own Key Outside Object) : Prop where
  disciplined : Reactor.Disciplined s.reactor
  held : ∀ {object task}, (s.pc object).task = some task → s.task object = some task
  born : ∀ {object task}, s.task object = some task → task < s.reactor.spawned
  delivery : ∀ task, s.Delivery task

omit [DecidableEq Object] in
theorem sound_initial (outside : Outside) :
    Sound (initial outside : Futures User Own Key Outside Object) where
  disciplined := Reactor.disciplined_initial outside
  held claims := by cases claims
  born held := by cases held
  delivery _ := .unclaimed (fun _ claims => by cases claims) rfl rfl rfl

/-- The next step of `get` brings the value of its task further, and of no other task. -/
theorem Sound.delivery_gets
    {object : Object} (sound : s.Sound) (gets : s.Gets movedFrom object next) (task : TaskId) :
    next.Delivery task := by
  have delivery := sound.delivery task
  by_cases quiet : (s.pc object).claim ≠ some task ∧ (next.pc object).claim ≠ some task
  · exact delivery.congr (gets.sameFor quiet.1 quiet.2)
  -- The claims at other objects are as they were.
  have elsewhere : ∀ {other}, other ≠ object → (next.pc other).claim = some task →
      (s.pc other).claim = some task := fun different claims => by
    rw [← gets.elsewhere different]
    exact claims
  cases gets with
  | null here null => exact absurd (by simp [here, GetPc.claim]) quiet
  | enter here holds => exact absurd (by simp [here, GetPc.claim, goto]) quiet
  | terminate here again => exact absurd (by simp [here, GetPc.claim]) quiet
  | @retrieve of here first =>
      obtain rfl : of = task := by simpa [here, GetPc.claim, goto] using quiet
      have born := sound.born (sound.held (by rw [here]; rfl))
      cases delivery with
      | unclaimed free first unmoved none =>
          refine .claimed object (Or.inl (Function.update_self ..)) (fun other claims => ?_) born
            (Function.update_self ..) unmoved none
          by_contra different
          exact free other (elsewhere different claims)
      | claimed _ _ _ _ retrieved => exact absurd retrieved (by simp [first])
      | taken _ _ _ _ retrieved => exact absurd retrieved (by simp [first])
      | delivered _ _ retrieved => exact absurd retrieved (by simp [first])
  | @notify of _ here finished =>
      obtain rfl : of = task := by simpa [here, GetPc.claim, goto] using quiet
      have claims : (s.pc object).claim = some of := by rw [here]; rfl
      obtain ⟨stage, alone, born, retrieved, none⟩ := delivery.of_claim claims
      have unmoved : s.moved of = false := by simpa [here] using stage
      refine .claimed object (Or.inr (Function.update_self ..)) (fun other claims => ?_) born
        retrieved unmoved none
      by_contra different
      exact different (alone other (elsewhere different claims))
  | @take of value here finished =>
      obtain rfl : of = task := by simpa [here, GetPc.claim, goto] using quiet
      have claims : (s.pc object).claim = some of := by rw [here]; rfl
      obtain ⟨stage, alone, born, retrieved, none⟩ := delivery.of_claim claims
      have unmoved : s.moved of = false := by simpa [here] using stage
      have there : (({ s with moved := Function.update s.moved of true }.goto object
          (.taken of (if s.moved of then movedFrom value else value))).pc object) =
          .taken of value := by
        rw [goto_self, unmoved]
        rfl
      refine .taken object there (fun other claims => ?_) born retrieved finished none
      by_contra different
      exact different (alone other (elsewhere different claims))
  | @finish of value here =>
      obtain rfl : of = task := by simpa [here, GetPc.claim, goto] using quiet
      have claims : (s.pc object).claim = some of := by rw [here]; rfl
      obtain ⟨stage, alone, born, retrieved, none⟩ := delivery.of_claim claims
      have finished : s.reactor.value of = some value := by simpa [here] using stage
      refine .delivered (fun other claims => ?_) born retrieved finished ?_
      · by_cases same : other = object
        · subst same
          simp [goto, GetPc.claim] at claims
        · exact same (alone other (elsewhere same claims))
      · have appended : [some (of, value)].filterMap (valueOf of) = [value] := by
          simp [valueOf]
        calc (s.returned ++ [some (of, value)]).filterMap (valueOf of)
            = s.answers of ++ [value] := by rw [List.filterMap_append, appended]; rfl
          _ = [value] := by rw [none, List.nil_append]

theorem Sound.setTask
    {object : Object} {task : Option TaskId} (sound : s.Sound)
    (idle : (s.pc object).isIdle = true)
    (born : ∀ {of}, task = some of → of < s.reactor.spawned) : (s.setTask object task).Sound where
  disciplined := sound.disciplined
  held {other of} claims := by
    have different : other ≠ object := by
      rintro rfl
      cases here : s.pc other with
      | idle => simp [Futures.setTask, here, GetPc.task] at claims
      | _ => simp [here, GetPc.isIdle] at idle
    exact (setTask_of_ne s different task).trans (sound.held claims)
  born {other of} held := by
    by_cases same : other = object
    · subst same
      exact born ((setTask_self s other task).symm.trans held)
    · exact sound.born ((setTask_of_ne s same task).symm.trans held)
  delivery task :=
    (sound.delivery task).congr ⟨fun _ _ => rfl, rfl, rfl, rfl, id, fun _ => id⟩

theorem Sound.gets
    {object : Object} (sound : s.Sound) (gets : s.Gets movedFrom object next) : next.Sound := by
  have goto : ∀ pc : GetPc (Result Own),
      (∀ {of}, pc.task = some of → s.task object = some of) →
      ∀ {other of}, ((Function.update s.pc object pc) other).task = some of →
        s.task other = some of := by
    intro pc held other of claims
    by_cases same : other = object
    · subst same
      rw [Function.update_self] at claims
      exact held claims
    · rw [Function.update_of_ne same] at claims
      exact sound.held claims
  have stays : ∀ {pc : GetPc (Result Own)}, pc.task = (s.pc object).task →
      ∀ {of}, pc.task = some of → s.task object = some of := fun same _ claims =>
    sound.held (same.symm.trans claims)
  have delivery := sound.delivery_gets gets
  cases gets with
  | null here null => exact ⟨sound.disciplined, sound.held, sound.born, delivery⟩
  | enter here holds =>
      refine ⟨sound.disciplined, goto _ fun claims => ?_, sound.born, delivery⟩
      rw [holds]
      exact claims
  | terminate here again => exact ⟨sound.disciplined, sound.held, sound.born, delivery⟩
  | retrieve here first =>
      exact ⟨sound.disciplined, goto _ (stays (by rw [here]; rfl)), sound.born, delivery⟩
  | notify here finished =>
      exact ⟨sound.disciplined, goto _ (stays (by rw [here]; rfl)), sound.born, delivery⟩
  | take here finished =>
      exact ⟨sound.disciplined, goto _ (stays (by rw [here]; rfl)), sound.born, delivery⟩
  | finish here =>
      refine ⟨sound.disciplined, fun {other of} claims => ?_, fun {other of} held => ?_, delivery⟩
      · have different : other ≠ object := by
          rintro rfl
          cases (congrArg GetPc.task (goto_self _ _ _)).symm.trans claims
        rw [goto_of_ne _ different] at claims
        exact (setTask_of_ne s different none).trans (sound.held claims)
      · have different : other ≠ object := by
          rintro rfl
          cases (setTask_self s _ none).symm.trans held
        exact sound.born ((setTask_of_ne s different none).symm.trans held)

end

/-! ## The machine -/

/-- What other threads do with the future objects. -/
inductive Label (User Key Outside Object : Type)
  | reactor (label : Reactor.Label User Key Outside)
  /-- `object = reactor.spawn(start)`. -/
  | spawn (start : Start User) (object : Object)
  | copy (source target : Object)
  | move (source target : Object)
  /-- A call of `get`, or its next step. -/
  | get (object : Object)

section

variable [DecidableEq Key]

/-- One step. -/
def step
    (surroundings : Surroundings User Own Local Key Outside)
    (movedFrom : Result Own → Result Own)
    (s : Futures User Own Key Outside Object)
    (label : Label User Key Outside Object) : Option (Futures User Own Key Outside Object) :=
  if s.terminated then none
  else
    match label with
    | .reactor label =>
        (Reactor.step surroundings s.reactor label).map fun reactor => { s with reactor := reactor }
    | .spawn start object =>
        if (s.pc object).isIdle then
          (Reactor.step surroundings s.reactor (.deed (.spawn start))).map fun reactor =>
            { s.setTask object (some s.reactor.spawned) with reactor := reactor }
        else none
    | .copy source target =>
        if (s.pc source).isIdle ∧ (s.pc target).isIdle then
          some (s.setTask target (s.task source))
        else none
    | .move source target =>
        if (s.pc source).isIdle ∧ (s.pc target).isIdle then
          some ((s.setTask source none).setTask target (s.task source))
        else none
    | .get object => s.get movedFrom object

/-- The steps, one constructor for each label. -/
inductive Steps
    (surroundings : Surroundings User Own Local Key Outside)
    (movedFrom : Result Own → Result Own) (s : Futures User Own Key Outside Object) :
    Label User Key Outside Object → Futures User Own Key Outside Object → Prop
  | reactor {label : Reactor.Label User Key Outside} {reactor : Reactor User Own Key Outside}
      (moves : Reactor.Moves surroundings s.reactor label reactor) :
      Steps surroundings movedFrom s (.reactor label) { s with reactor := reactor }
  | spawn {object : Object} (idle : (s.pc object).isIdle = true) (start : Start User) :
      Steps surroundings movedFrom s (.spawn start object)
        { s.setTask object (some s.reactor.spawned) with reactor := s.reactor.spawn start }
  | copy {source target : Object} (idle : (s.pc source).isIdle = true)
      (idle' : (s.pc target).isIdle = true) :
      Steps surroundings movedFrom s (.copy source target) (s.setTask target (s.task source))
  | move {source target : Object} (idle : (s.pc source).isIdle = true)
      (idle' : (s.pc target).isIdle = true) :
      Steps surroundings movedFrom s (.move source target)
        ((s.setTask source none).setTask target (s.task source))
  | get {object : Object} {next : Futures User Own Key Outside Object}
      (gets : s.Gets movedFrom object next) :
      Steps surroundings movedFrom s (.get object) next

variable {surroundings : Surroundings User Own Local Key Outside}
variable {s next : Futures User Own Key Outside Object}
variable {movedFrom : Result Own → Result Own}

theorem steps_of_step
    {label : Label User Key Outside Object}
    (stepped : step surroundings movedFrom s label = some next) :
    s.Steps surroundings movedFrom label next := by
  unfold step at stepped
  split_ifs at stepped
  cases label with
  | reactor label =>
      obtain ⟨reactor, moved, rfl⟩ := Option.map_eq_some_iff.mp stepped
      exact .reactor (Reactor.moves_of_step moved)
  | spawn start object =>
      dsimp only at stepped
      split_ifs at stepped with idle
      obtain ⟨reactor, moved, rfl⟩ := Option.map_eq_some_iff.mp stepped
      cases Reactor.moves_of_step moved with
      | deed => exact .spawn idle start
  | copy source target =>
      dsimp only at stepped
      split_ifs at stepped with idle
      obtain rfl := Option.some.inj stepped
      exact .copy idle.1 idle.2
  | move source target =>
      dsimp only at stepped
      split_ifs at stepped with idle
      obtain rfl := Option.some.inj stepped
      exact .move idle.1 idle.2
  | get object => exact .get (gets_of_get stepped)

omit [DecidableEq Object] in
theorem Sound.reactor
    {label : Reactor.Label User Key Outside} {reactor : Reactor User Own Key Outside}
    (sound : s.Sound) (moves : Reactor.Moves surroundings s.reactor label reactor) :
    Sound { s with reactor := reactor } := by
  obtain ⟨disciplined, more⟩ := sound.disciplined.moves moves
  refine ⟨disciplined, sound.held, fun held => (sound.born held).trans_le more, fun task => ?_⟩
  exact (sound.delivery task).congr ⟨fun _ _ => rfl, rfl, rfl, rfl, fun born => born.trans_le more,
    fun born returned => Reactor.value_moves sound.disciplined born returned moves⟩

theorem Sound.steps
    {label : Label User Key Outside Object} (sound : s.Sound)
    (steps : s.Steps surroundings movedFrom label next) : next.Sound := by
  cases steps with
  | reactor moves => exact sound.reactor moves
  | spawn idle start =>
      have spawned : Reactor.Moves surroundings s.reactor (.deed (.spawn start))
        (s.reactor.spawn start) := .deed _
      refine (sound.reactor spawned).setTask idle fun same => ?_
      obtain rfl := Option.some.inj same
      exact Nat.lt_succ_self _
  | copy idle idle' => exact sound.setTask idle' sound.born
  | move idle idle' =>
      exact (sound.setTask idle (fun {_} same => by cases same)).setTask idle' sound.born
  | get gets => exact sound.gets gets

/-- What a reachable state's tasks have delivered. -/
theorem sound_of_reachable
    {outside : Outside}
    (reachable : Machine.Reachable (step surroundings movedFrom) (initial outside) s) :
    s.Sound :=
  Machine.invariant_of_reachable
    (fun _ _ _ sound stepped => sound.steps (steps_of_step stepped))
    (sound_initial outside) reachable

end

end Futures

end Cppio
