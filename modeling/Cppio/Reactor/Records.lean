import Cppio.Reactor.Recording
import Cppio.Reactor.Rounds
import Cppio.Task.Projection

/-!
# What the tasks of a reactor do

The log of a run of the reactor: which task performed which effect, with which
outcome, and called `wait()`.  Whatever the other tasks, the timers, epoll and other
threads do meanwhile, the part of a task in the log is the record of an execution of
the code that it was spawned with.
-/

namespace Cppio
namespace Reactor

variable {User Own Local Key Outside : Type} [DecidableEq Key]

/-- What the effect does where the task performs it. -/
def outcome
    (surroundings : Surroundings User Own Local Key Outside)
    (task : TaskId) :
    (effect : Effect User Local) → Reactor User Own Key Outside → effect.Outcome Own
  | .syscall call, s => (perform surroundings task (.syscall call) s).1
  | .overlapped, _ => ()
  | .success, s => s.success task
  | .register _ sock, s =>
      if (surroundings.epollCtl s.outside sock).isSome then ⟨0, 0⟩ else ⟨-1, -1⟩
  | .startTimer _, _ => ()
  | .perform effect, s => (perform surroundings task (.perform effect) s).1
  | .spawn _, _ => ()

theorem reply_outcome
    (surroundings : Surroundings User Own Local Key Outside) (task : TaskId)
    (effect : Effect User Local) (s : Reactor User Own Key Outside) :
    effect.reply (outcome surroundings task effect s) = (perform surroundings task effect s).1 := by
  cases effect with
  | _ => rfl

/-- The rest of the reactor, as the kernel of one task. -/
def kernel
    (surroundings : Surroundings User Own Local Key Outside) (task : TaskId)
    (effect : Effect User Local) (s : Reactor User Own Key Outside) :
    effect.Outcome Own × Reactor User Own Key Outside :=
  (outcome surroundings task effect s, (perform surroundings task effect s).2)

/-- The coroutines of a task, with a record of what they do. -/
abbrev recorder (surroundings : Surroundings User Own Local Key Outside) (task : TaskId) :
    System (Code User Own) (Effect User Local) (Result Own)
      (Recording User Own Local (Reactor User Own Key Outside)) (Effect.Reply Own) :=
  Recording.system surroundings.program (kernel surroundings task)

/-- The task before it does anything in a round. -/
def recording (s : Reactor User Own Key Outside) (task : TaskId) :
    Recording User Own Local (Reactor User Own Key Outside) :=
  ⟨s.state task, s, []⟩

/-- What a task does in a step. -/
def passed
    (surroundings : Surroundings User Own Local Key Outside) (s : Reactor User Own Key Outside) :
    Label User Key Outside → List (TaskId × Occurs User Own Local)
  | .process fuel =>
      match s.pc, s.tasks with
      | .processing, task :: _ =>
          match (recorder surroundings task).oneStep fuel (s.frames task)
            (s.popFront.recording task) with
          | .ok (_, _, r) => r.record.map (Prod.mk task)
          | .error _ => []
      | _, _ => []
  | _ => []

/-- What the tasks do on a run. -/
def log (surroundings : Surroundings User Own Local Key Outside) :
    Reactor User Own Key Outside → List (Label User Key Outside) →
      List (TaskId × Occurs User Own Local)
  | _, [] => []
  | s, label :: labels =>
      passed surroundings s label ++
        match step surroundings s label with
        | some next => log surroundings next labels
        | none => []

/-- The part of a task in a log. -/
def part (task : TaskId) (log : List (TaskId × Occurs User Own Local)) :
    List (Occurs User Own Local) :=
  (log.filter fun entry => entry.1 = task).map Prod.snd

omit [DecidableEq Key] in
theorem part_append (task : TaskId) (first second : List (TaskId × Occurs User Own Local)) :
    part task (first ++ second) = part task first ++ part task second := by
  simp [part]

theorem part_map_same (task : TaskId) (record : List (Occurs User Own Local)) :
    part task (record.map (Prod.mk task)) = record := by
  simp [part, List.filter_map, Function.comp_def]

theorem part_map_of_ne
    {task other : TaskId}
    (different : other ≠ task) (record : List (Occurs User Own Local)) :
    part task (record.map (Prod.mk other)) = [] := by
  simp [part, List.filter_map, Function.comp_def, different]

/-! ## A call of `one_step` with a record -/

/-- The reactor that the task with a record acts on. -/
def ofRecording (task : TaskId)
    (r : Recording User Own Local (Reactor User Own Key Outside)) :
    Reactor User Own Key Outside :=
  r.outside.setState task r.state

theorem deed_setState
    (s : Reactor User Own Key Outside) (task : TaskId) (state : ScheduleType)
    (deed : Deed User Key) :
    (s.setState task state).deed deed = (s.deed deed).setState task state := by
  cases deed with
  | _ => rfl

theorem foldl_deed_setState
    (task : TaskId) (state : ScheduleType) (deeds : List (Deed User Key))
    (s : Reactor User Own Key Outside) :
    deeds.foldl deed (s.setState task state) = (deeds.foldl deed s).setState task state := by
  induction deeds generalizing s with
  | nil => rfl
  | cons deed deeds inductionHypothesis =>
      rw [List.foldl_cons, deed_setState]
      exact inductionHypothesis _

theorem meanwhile_setState
    (s : Reactor User Own Key Outside) (task : TaskId) (state : ScheduleType)
    (outside : Outside) (deeds : List (Deed User Key)) :
    deeds.foldl deed { s.setState task state with outside := outside } =
      (deeds.foldl deed { s with outside := outside }).setState task state :=
  foldl_deed_setState task state deeds { s with outside := outside }

/-- No effect looks at `m_state`. -/
theorem perform_setState
    (surroundings : Surroundings User Own Local Key Outside) (task : TaskId)
    (effect : Effect User Local) (state : ScheduleType) (s : Reactor User Own Key Outside) :
    perform surroundings task effect (s.setState task state) =
      ((perform surroundings task effect s).1,
        (perform surroundings task effect s).2.setState task state) := by
  cases effect with
  | syscall call =>
      exact congrArg (Prod.mk _) (meanwhile_setState s task state _ _)
  | register interest sock =>
      simp only [perform, setState]
      cases surroundings.epollCtl s.outside sock with
      | _ => rfl
  | perform effect =>
      exact congrArg (Prod.mk _) (meanwhile_setState s task state _ _)
  | _ => rfl

/-- The coroutines of a task in the reactor do what they do with a record. -/
theorem views_recorder
    (surroundings : Surroundings User Own Local Key Outside) (task : TaskId) :
    (system surroundings task).Views (recorder surroundings task) (ofRecording task) where
  body := rfl
  perform effect r := by
    change perform surroundings task effect (r.outside.setState task r.state) = _
    rw [perform_setState]
    exact congrArg₂ Prod.mk (reply_outcome surroundings task effect r.outside).symm rfl
  state r := by
    change Function.update r.outside.state task r.state task = r.state
    exact Function.update_self task r.state r.outside.state
  wait r := by
    change (r.outside.setState task r.state).setState task .wait = r.outside.setState task .wait
    simp [setState]
  observe _ _ := rfl

end Reactor

namespace Recording

variable {User Own Local Outside : Type} {program : User → UserInstr User Own Local}
variable {kernel : (effect : Effect User Local) → Outside → effect.Outcome Own × Outside}

/-- The same task, which has done these things before. -/
def after (before : List (Occurs User Own Local)) (r : Recording User Own Local Outside) :
    Recording User Own Local Outside :=
  { r with record := before ++ r.record }

/-- What a task does does not depend on what it has done. -/
theorem views_after (before : List (Occurs User Own Local)) :
    (system program kernel).Views (system program kernel) (after before) where
  body := rfl
  perform effect r := by simp [system, after]
  state _ := rfl
  wait r := by simp [system, after]
  observe _ _ := rfl

/-- A call of `one_step` goes on with the record. -/
theorem Called.extend
    {code : Code User Own} {frames frames' : Frames (Code User Own) (Result Own)}
    {state result : ScheduleType} {outside : Outside} {record : List (Occurs User Own Local)}
    {before : Option ScheduleType} {r : Recording User Own Local Outside} {fuel : Nat}
    (called : Called program kernel code frames ⟨state, outside, record⟩ before)
    (unfinished : before ≠ some .done)
    (ran : (system program kernel).oneStep fuel frames ⟨state, outside, []⟩ =
      .ok (result, frames', r)) :
    Called program kernel code frames' (r.after record) (some result) := by
  have views : (system program kernel).Views (system program kernel) (after record) :=
    views_after record
  have later := views.oneStep fuel frames ⟨state, outside, []⟩
  rw [ran, after, List.append_nil] at later
  exact called.call unfinished later

end Recording

namespace Reactor

open Recording

variable {User Own Local Key Outside : Type} [DecidableEq Key]
variable {surroundings : Surroundings User Own Local Key Outside}
variable {s next : Reactor User Own Key Outside} {task : TaskId}

/-! ## What happens to a task -/

/-- The coroutines of a spawned task and its `m_state` are these. -/
structure Stands (task : TaskId) (frames : Frames (Code User Own) (Result Own))
    (state : ScheduleType) (s : Reactor User Own Key Outside) : Prop where
  born : task < s.spawned
  frames : s.frames task = frames
  state : s.state task = state

theorem Stands.deed
    {frames : Frames (Code User Own) (Result Own)} {state : ScheduleType}
    (stands : Stands task frames state s) (deed : Deed User Key) :
    Stands task frames state (s.deed deed) := by
  have same := sameFor_deed s deed (Nat.ne_of_lt stands.born)
  exact ⟨same.born.mpr stands.born, same.frames.trans stands.frames,
    same.state.trans stands.state⟩

theorem Stands.deeds
    {frames : Frames (Code User Own) (Result Own)} {state : ScheduleType}
    (stands : Stands task frames state s) (deeds : List (Deed User Key)) :
    Stands task frames state (deeds.foldl Reactor.deed s) := by
  induction deeds generalizing s with
  | nil => exact stands
  | cons deed deeds inductionHypothesis => exact inductionHypothesis (stands.deed deed)

/-- What the coroutines of a task do leaves the others where they are. -/
theorem preserves_stands
    (surroundings : Surroundings User Own Local Key Outside) {other : TaskId}
    (different : task ≠ other) (frames : Frames (Code User Own) (Result Own))
    (state : ScheduleType) :
    (system surroundings other).Preserves (Stands task frames state) where
  perform := by
    intro effect s stands
    cases effect with
    | syscall call =>
        exact Stands.deeds (s := { s with outside := (surroundings.syscall call s.outside).2.2 })
          ⟨stands.born, stands.frames, stands.state⟩ _
    | register interest sock =>
        change Stands task frames state (perform surroundings other _ s).2
        simp only [Reactor.perform]
        cases surroundings.epollCtl s.outside sock with
        | _ => exact ⟨stands.born, stands.frames, stands.state⟩
    | perform effect =>
        exact Stands.deeds (s := { s with outside := (surroundings.perform effect s.outside).2.2 })
          ⟨stands.born, stands.frames, stands.state⟩ _
    | spawn start => exact stands.deed (.spawn start)
    | _ => exact ⟨stands.born, stands.frames, stands.state⟩
  wait s stands :=
    ⟨stands.born, stands.frames, (Function.update_of_ne different _ _).trans stands.state⟩
  observe _ _ stands := stands

omit [DecidableEq Key] in
theorem Stands.settle
    {frames : Frames (Code User Own) (Result Own)} {state : ScheduleType}
    (stands : Stands task frames state s) (other : TaskId) (result : ScheduleType) :
    Stands task frames state (s.settle other result) := by
  cases result with
  | _ => exact ⟨stands.born, stands.frames, stands.state⟩

/-- A round of `process_tasks` leaves the tasks that it has not popped where they are. -/
theorem Stands.process
    {frames : Frames (Code User Own) (Result Own)} {state : ScheduleType} {other : TaskId}
    {fuel : Nat}
    (stands : Stands task frames state s) (different : task ≠ other)
    (processed : s.process surroundings fuel other = some next) :
    Stands task frames state next := by
  unfold Reactor.process at processed
  split_ifs at processed with waiting
  · obtain rfl := Option.some.inj processed
    exact stands.settle other .wait
  · split at processed
    · next result frames' s' returned =>
        obtain rfl := Option.some.inj processed
        obtain ⟨held, -⟩ := (preserves_stands surroundings different frames state).oneStep
          stands returned
        have kept : Stands task frames state (s'.setFrames other frames') :=
          ⟨held.born, (Function.update_of_ne different _ _).trans held.frames, held.state⟩
        exact kept.settle other result
    · cases processed
    · obtain rfl := Option.some.inj processed
      exact ⟨stands.born, stands.frames, stands.state⟩

/-- Calls of `one_step` have brought the task from its code to here, with this record. -/
def Tracks
    (surroundings : Surroundings User Own Local Key Outside) (code : Code User Own)
    (task : TaskId) (s : Reactor User Own Key Outside)
    (record : List (Occurs User Own Local)) : Prop :=
  task < s.spawned ∧ ∃ result, Called surroundings.program (kernel surroundings task) code
    (s.frames task) ⟨s.state task, s, record⟩ result

section

variable {code : Code User Own} {record : List (Occurs User Own Local)}

theorem Tracks.stands
    (tracks : Tracks surroundings code task s record)
    (stands : Stands task (s.frames task) (s.state task) next) :
    Tracks surroundings code task next record := by
  obtain ⟨-, result, called⟩ := tracks
  have later := called.meanwhile next
  refine ⟨stands.born, result, ?_⟩
  rw [stands.frames, stands.state]
  exact later

theorem Tracks.wake (tracks : Tracks surroundings code task s record) (other : TaskId) :
    Tracks surroundings code task (s.wake other) record := by
  by_cases same : task = other
  · subst same
    obtain ⟨born, result, called⟩ := tracks
    have later := called.wake.meanwhile (s.wake task)
    refine ⟨born, result, ?_⟩
    rw [show (s.wake task).state task = .run from Function.update_self _ _ _]
    exact later
  · exact tracks.stands ⟨tracks.1, rfl, Function.update_of_ne same _ _⟩

theorem Tracks.poll (tracks : Tracks surroundings code task s record) (now : Int) :
    Tracks surroundings code task (s.poll now) record := by
  have woken : ∀ (due : List TaskId) (s : Reactor User Own Key Outside),
      Tracks surroundings code task s record →
        Tracks surroundings code task (due.foldl Reactor.wake s) record := by
    intro due
    induction due with
    | nil => exact fun _ tracks => tracks
    | cons other due inductionHypothesis =>
        exact fun s tracks => inductionHypothesis _ (tracks.wake other)
  have polled : Tracks surroundings code task { s with timers := (s.timers.getDelay now).pool }
      record := tracks.stands ⟨tracks.1, rfl, rfl⟩
  exact (woken _ _ polled).stands ⟨(woken _ _ polled).1, rfl, rfl⟩

theorem Tracks.complete
    (tracks : Tracks surroundings code task s record) (events : List (Registration Key × Bool)) :
    Tracks surroundings code task (s.complete events) record := by
  have delivered : ∀ s : Reactor User Own Key Outside,
      Tracks surroundings code task s record →
        Tracks surroundings code task (events.foldl deliver s) record := by
    induction events with
    | nil => exact fun _ tracks => tracks
    | cons event events inductionHypothesis =>
        refine fun s tracks => inductionHypothesis _ (Tracks.wake ?_ event.1.task)
        exact tracks.stands ⟨tracks.1, rfl, rfl⟩
  exact delivered _ (tracks.stands ⟨tracks.1, rfl, rfl⟩)

/-! ## Steps and runs -/

omit [DecidableEq Key] in
theorem ofRecording_recording (s : Reactor User Own Key Outside) (task : TaskId) :
    ofRecording task (s.recording task : Recording User Own Local _) = s := by
  change s.setState task (s.state task) = s
  rw [setState, Function.update_eq_self]

theorem process_recording
    (surroundings : Surroundings User Own Local Key Outside) (fuel : Nat)
    (s : Reactor User Own Key Outside) (task : TaskId) :
    (system surroundings task).oneStep fuel (s.frames task) s =
      ((recorder surroundings task).oneStep fuel (s.frames task) (s.recording task)).map
        (System.Views.result (ofRecording task)) := by
  have viewed := (views_recorder surroundings task).oneStep fuel (s.frames task) (s.recording task)
  rwa [ofRecording_recording] at viewed

theorem passed_round
    {rest : List TaskId} {fuel : Nat} (here : s.pc = .processing) (first : s.tasks = task :: rest) :
    passed surroundings s (.process fuel) =
      match (recorder surroundings task).oneStep fuel (s.frames task)
          (s.popFront.recording task) with
      | .ok (_, _, r) => r.record.map (Prod.mk task)
      | .error _ => [] := by
  simp only [passed, here, first]

/-- A task that has not finished may be called. -/
theorem Tracks.callable
    (tracks : Tracks surroundings code task s record) (parksOnce : code.ParksOnce)
    {holds : List (Result Own → Code User Own) → Code User Own → Prop}
    (suspended : (s.frames task).SuspendedAt holds) :
    ∃ result, result ≠ some .done ∧ Called surroundings.program (kernel surroundings task) code
      (s.frames task) ⟨s.state task, s, record⟩ result := by
  obtain ⟨-, result, called⟩ := tracks
  refine ⟨result, fun done => ?_, called⟩
  obtain ⟨value, finished, -⟩ := (replayed_of_called _ parksOnce called).finished done
  exact suspended.unfinished value finished

/-- The task's own round extends its record by what it does. -/
theorem Tracks.own
    {rest : List TaskId} {fuel : Nat}
    (tracks : Tracks surroundings code task s record) (parksOnce : code.ParksOnce)
    (disciplined : Disciplined s) (here : s.pc = .processing) (first : s.tasks = task :: rest)
    (processed : s.popFront.process surroundings fuel task = some next) :
    Tracks surroundings code task next
      (record ++ part task (passed surroundings s (.process fuel))) := by
  obtain ⟨-, suspended, runs, -⟩ :=
    current_of_pop disciplined.standing first disciplined.defined here
  obtain ⟨result, unfinished, called⟩ := tracks.callable parksOnce suspended
  have born : task < next.spawned :=
    tracks.1.trans_le (disciplined.moves (.round here first processed)).2
  have awake : s.popFront.state task ≠ .wait := by
    change s.state task ≠ .wait
    rw [runs]
    decide
  rw [passed_round here first]
  unfold Reactor.process at processed
  rw [if_neg awake, process_recording surroundings fuel s.popFront task] at processed
  cases returned : (recorder surroundings task).oneStep fuel (s.popFront.frames task)
      (s.popFront.recording task) with
  | error stuck =>
      have returned' : (recorder surroundings task).oneStep fuel (s.frames task)
          (s.popFront.recording task) = .error stuck := returned
      rw [returned']
      rw [returned] at processed
      cases stuck with
      | outOfFuel => cases processed
      | undefined =>
          obtain rfl := Option.some.inj processed
          rw [show part task [] = ([] : List (Occurs User Own Local)) from rfl, List.append_nil]
          exact tracks.stands ⟨born, rfl, rfl⟩
  | ok left =>
      obtain ⟨result', frames', r'⟩ := left
      have ran : (recorder surroundings task).oneStep fuel (s.frames task)
          ⟨s.state task, s.popFront, []⟩ = .ok (result', frames', r') := returned
      rw [returned] at processed
      obtain rfl := Option.some.inj processed
      have later := (called.meanwhile s.popFront).extend unfinished ran
      have returned' : (recorder surroundings task).oneStep fuel (s.frames task)
          (s.popFront.recording task) = .ok (result', frames', r') := returned
      rw [returned', part_map_same]
      refine ⟨born, some result', ?_⟩
      rw [settle_frames, settle_state]
      have frames : ((ofRecording task r').setFrames task frames').frames task = frames' :=
        Function.update_self _ _ _
      have state : ((ofRecording task r').setFrames task frames').state task = r'.state :=
        Function.update_self _ _ _
      change Called _ _ code (((ofRecording task r').setFrames task frames').frames task)
        ⟨((ofRecording task r').setFrames task frames').state task, _, _⟩ _
      rw [frames, state]
      exact later.meanwhile _

/-- What a task does in a step is in the round of the task. -/
theorem Tracks.moves
    {label : Label User Key Outside}
    (tracks : Tracks surroundings code task s record) (parksOnce : code.ParksOnce)
    (disciplined : Disciplined s) (moves : Moves surroundings s label next) :
    Tracks surroundings code task next (record ++ part task (passed surroundings s label)) := by
  have quiet : ∀ {log : List (TaskId × Occurs User Own Local)}, part task log = [] →
      ∀ {next : Reactor User Own Key Outside}, Tracks surroundings code task next record →
        Tracks surroundings code task next (record ++ part task log) := by
    intro log none next tracks
    rwa [none, List.append_nil]
  cases moves with
  | poll here => exact quiet rfl ((tracks.poll _).stands ⟨(tracks.poll _).1, rfl, rfl⟩)
  | @complete _ events here possible =>
      have completed := tracks.complete events
      exact quiet rfl (completed.stands ⟨completed.1, rfl, rfl⟩)
  | idle here noTask fuel =>
      refine quiet ?_ (tracks.stands ⟨tracks.1, rfl, rfl⟩)
      simp [passed, here, noTask, part]
  | @round other rest fuel _ here first processed =>
      by_cases same : task = other
      · subst same
        exact tracks.own parksOnce disciplined here first processed
      · have stands : Stands task (s.frames task) (s.state task) s.popFront :=
          ⟨tracks.1, rfl, rfl⟩
        refine quiet ?_ (tracks.stands (stands.process same processed))
        rw [passed_round here first]
        split
        · exact part_map_of_ne (Ne.symm same) _
        · rfl
  | deed deed => exact quiet rfl (tracks.stands (Stands.deed ⟨tracks.1, rfl, rfl⟩ deed))
  | _ => exact quiet rfl (tracks.stands ⟨tracks.1, rfl, rfl⟩)

/-- A task that was never called has done nothing. -/
theorem record_of_uncalled
    {program : User → UserInstr User Own Local} {Away : Type}
    {kernel : (effect : Effect User Local) → Away → effect.Outcome Own × Away}
    {frames : Frames (Code User Own) (Result Own)} {r : Recording User Own Local Away}
    {result : Option ScheduleType}
    (called : Called program kernel code frames r result) (never : result = none) :
    r.record = [] := by
  induction called with
  | start outside => rfl
  | call => cases never
  | meanwhile _ _ inductionHypothesis => exact inductionHypothesis never
  | wake _ inductionHypothesis => exact inductionHypothesis never

/-- What a task has done when it is done is an execution that returns its value. -/
theorem Tracks.done
    (tracks : Tracks surroundings code task s record) (parksOnce : code.ParksOnce)
    (done : s.Done task) :
    ∃ value, (s.frames task).FinishedWith value ∧
      Recorded surroundings.program code record (some value) := by
  obtain ⟨-, result, called⟩ := tracks
  have replayed := replayed_of_called _ parksOnce called
  by_cases finished : result = some .done
  · exact replayed.finished finished
  · obtain ⟨value, finishedWith⟩ := done
    exact absurd finishedWith ((replayed.unfinished finished).2.unfinished value)

/-- What a task has done before it is done is an execution up to a suspension. -/
theorem Tracks.unfinished
    (tracks : Tracks surroundings code task s record) (parksOnce : code.ParksOnce)
    (unfinished : ¬s.Done task) :
    record = [] ∨ Recorded surroundings.program code record none := by
  obtain ⟨-, result, called⟩ := tracks
  have replayed := replayed_of_called _ parksOnce called
  have notDone : result ≠ some .done := by
    intro done
    obtain ⟨value, finished, -⟩ := replayed.finished done
    exact unfinished ⟨value, finished⟩
  by_cases never : result = none
  · exact Or.inl (record_of_uncalled called never)
  · exact Or.inr (replayed.rests notDone never)

theorem Tracks.run
    {labels : List (Label User Key Outside)} {last : Reactor User Own Key Outside}
    (tracks : Tracks surroundings code task s record) (parksOnce : code.ParksOnce)
    (disciplined : Disciplined s) (ran : Machine.run (step surroundings) s labels = some last) :
    Tracks surroundings code task last (record ++ part task (log surroundings s labels)) := by
  induction labels generalizing s record with
  | nil =>
      obtain rfl := Option.some.inj ran
      rw [log, show part task [] = ([] : List (Occurs User Own Local)) from rfl, List.append_nil]
      exact tracks
  | cons label labels inductionHypothesis =>
      rw [Machine.run_cons, Option.bind_eq_some_iff] at ran
      obtain ⟨next, stepped, later⟩ := ran
      have moves := moves_of_step stepped
      have tracksNext := tracks.moves parksOnce disciplined moves
      rw [log, stepped, part_append, ← List.append_assoc]
      exact inductionHypothesis tracksNext (disciplined.moves moves).1 later

end

/-- A task that stands where it was spawned. -/
structure Fresh (start : Start User) (task : TaskId) (s : Reactor User Own Key Outside) :
    Prop where
  born : task < s.spawned
  frames : s.frames task = Frames.ofCode start.code
  state : s.state task = .run

/-- From where a task was spawned, a run brings it to here with this record. -/
theorem tracks_of_fresh
    {outside : Outside} {labels : List (Label User Key Outside)}
    {last : Reactor User Own Key Outside} {start : Start User}
    (reachable : Machine.Reachable (step surroundings) (initial outside) s)
    (fresh : Fresh start task s)
    (ran : Machine.run (step surroundings) s labels = some last) :
    Tracks surroundings start.code task last (part task (log surroundings s labels)) := by
  have tracks : Tracks surroundings start.code task s [] := by
    refine ⟨fresh.born, none, ?_⟩
    rw [fresh.frames, fresh.state]
    exact .start _
  exact tracks.run (Code.parksOnce_code start) (disciplined_of_reachable reachable) ran

/-- The tasks of a reactor do not disturb each other.  From where a task was spawned,
whatever the other tasks, the timers, epoll and other threads do meanwhile, the task
does what an execution of its own code does; and when it is done, its value is the one
that the execution returns. -/
theorem tasks_isolated
    {outside : Outside} {labels : List (Label User Key Outside)}
    {last : Reactor User Own Key Outside} {start : Start User}
    (reachable : Machine.Reachable (step surroundings) (initial outside) s)
    (fresh : Fresh start task s)
    (ran : Machine.run (step surroundings) s labels = some last) :
    let record := part task (log surroundings s labels)
    (last.Done task → ∃ value, (last.frames task).FinishedWith value ∧
        Recorded surroundings.program start.code record (some value)) ∧
      (¬last.Done task →
        record = [] ∨ Recorded surroundings.program start.code record none) := by
  intro record
  have tracks := tracks_of_fresh reachable fresh ran
  exact ⟨tracks.done (Code.parksOnce_code start), tracks.unfinished (Code.parksOnce_code start)⟩

/-- The first task, in the middle of which the second one asks for its number. -/
theorem tasks_isolated_delegated :
    ∃ s last value, Machine.run (step delegating) s (delegated.tail ++ delegatedAwake) = some last ∧
      part 1 (log delegating s (delegated.tail ++ delegatedAwake)) =
        [.performed (.perform ()) 0] ∧
      part 0 (log delegating s (delegated.tail ++ delegatedAwake)) =
        [.waited, .performed (.startTimer 5) (), .performed (.perform ()) 6] ∧
      (last.frames 0).FinishedWith value ∧
      Recorded delegating.program (Start.user 1).code
        (part 0 (log delegating s (delegated.tail ++ delegatedAwake))) (some value) := by
  obtain ⟨s, last, spawned, ran, second, first, finished⟩ : ∃ s last,
      Machine.run (step delegating) (initial 0) (delegated.take 1) = some s ∧
        Machine.run (step delegating) s (delegated.tail ++ delegatedAwake) = some last ∧
        part 1 (log delegating s (delegated.tail ++ delegatedAwake)) =
          [.performed (.perform ()) 0] ∧
        part 0 (log delegating s (delegated.tail ++ delegatedAwake)) =
          [.waited, .performed (.startTimer 5) (), .performed (.perform ()) 6] ∧
        last.Done 0 :=
    ⟨_, _, rfl, rfl, rfl, rfl, _, _, rfl, rfl, rfl⟩
  have fresh : Fresh (.user 1) 0 s := by
    cases spawned
    exact ⟨Nat.zero_lt_one, rfl, rfl⟩
  obtain ⟨value, finishedWith, recorded⟩ :=
    (tasks_isolated ⟨_, spawned⟩ fresh ran).1 finished
  exact ⟨s, last, value, ran, second, first, finishedWith, recorded⟩

/-! ## What every effect does -/

section

variable {holds : Occurs User Own Local → Prop}

theorem forall_mem_passed
    (performs : ∀ task effect s,
      holds (.performed effect (outcome surroundings task effect s))) (waits : holds .waited)
    (s : Reactor User Own Key Outside) (label : Label User Key Outside) :
    ∀ entry ∈ passed surroundings s label, holds entry.2 := by
  have preserves : ∀ task, (recorder surroundings task).Preserves
      fun r => ∀ occurrence ∈ r.record, holds occurrence := by
    intro task
    constructor
    · exact fun effect r each => List.forall_mem_append.mpr
        ⟨each, List.forall_mem_singleton.mpr (performs task effect r.outside)⟩
    · exact fun r each => List.forall_mem_append.mpr
        ⟨each, List.forall_mem_singleton.mpr waits⟩
    · exact fun _ _ each => each
  unfold passed
  split
  · split
    · split
      · next returned =>
          obtain ⟨each, -⟩ := (preserves _).oneStep (List.forall_mem_nil _) returned
          exact List.forall_mem_map.mpr each
      · exact List.forall_mem_nil _
    · exact List.forall_mem_nil _
  · exact List.forall_mem_nil _

/-- What holds of every effect of a task, holds of all that the tasks do. -/
theorem forall_mem_log
    (performs : ∀ task effect s,
      holds (.performed effect (outcome surroundings task effect s))) (waits : holds .waited)
    (s : Reactor User Own Key Outside) (labels : List (Label User Key Outside)) :
    ∀ entry ∈ log surroundings s labels, holds entry.2 := by
  induction labels generalizing s with
  | nil => exact List.forall_mem_nil _
  | cons label labels inductionHypothesis =>
      refine List.forall_mem_append.mpr ⟨forall_mem_passed performs waits s label, ?_⟩
      cases step surroundings s label with
      | none => exact List.forall_mem_nil _
      | some next => exact inductionHypothesis next

theorem forall_mem_part
    {log : List (TaskId × Occurs User Own Local)} (each : ∀ entry ∈ log, holds entry.2) :
    ∀ occurrence ∈ part task log, holds occurrence := by
  intro occurrence present
  obtain ⟨entry, among, rfl⟩ := List.mem_map.mp present
  exact each entry (List.mem_of_mem_filter among)

end

/-- A run of a reactor from where a task was spawned. -/
structure TaskRun
    (surroundings : Surroundings User Own Local Key Outside) (start : Start User) where
  {outside : Outside}
  {first : Reactor User Own Key Outside}
  last : Reactor User Own Key Outside
  labels : List (Label User Key Outside)
  task : TaskId
  reachable : Machine.Reachable (step surroundings) (initial outside) first
  fresh : Fresh start task first
  ran : Machine.run (step surroundings) first labels = some last

/-- What the task does on the run. -/
def TaskRun.record {start : Start User} (run : TaskRun surroundings start) :
    List (Occurs User Own Local) :=
  part run.task (log surroundings run.first run.labels)

end Reactor
end Cppio
