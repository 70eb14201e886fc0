import Cppio.Reactor.Discipline
import Cppio.Reactor.Executions

/-!
# A task with a record

A task on its own, whose world keeps a record of the effects and of the calls of
`wait()`.  Whatever calls of `one_step` leave in the record, an execution of the
task's code leaves, apart from its suspensions.
-/

namespace Cppio

variable {User Own Local Outside : Type}

/-- The world of a task. -/
structure Recording (User Own Local Outside : Type) where
  /-- `m_state`. -/
  state : ScheduleType
  outside : Outside
  record : List (Occurs User Own Local)

namespace Recording

variable (program : User → UserInstr User Own Local)
variable (kernel : (effect : Effect User Local) → Outside → effect.Outcome Own × Outside)

/-- The coroutines of the task. -/
def system :
    System (Code User Own) (Effect User Local) (Result Own) (Recording User Own Local Outside)
      (Effect.Reply Own) where
  body := Code.instr program
  perform effect r :=
    (effect.reply (kernel effect r.outside).1,
      { r with
        outside := (kernel effect r.outside).2
        record := r.record ++ [.performed effect (kernel effect r.outside).1] })
  state := state
  wait r := { r with state := .wait, record := r.record ++ [.waited] }
  observe _ r := r

/-- The record has no suspensions. -/
def recorded : Occurs User Own Local → Bool
  | .suspended => false
  | _ => true

/-- An execution of the code has left this record. -/
def Recorded
    (code : Code User Own) (record : List (Occurs User Own Local)) (last : Option (Result Own)) :
    Prop :=
  ∃ events, events.filter recorded = record ∧ code.Executes program [] events last

/-- The first part of an execution of the code, up to anywhere, has left this record. -/
def Begun (code : Code User Own) (record : List (Occurs User Own Local)) : Prop :=
  ∃ events last, events.filter recorded = record ∧ code.Advances True program [] events last

/-- An execution of the code has come here and left this record. -/
def Leads
    (code : Code User Own) (nexts : List (Result Own → Code User Own)) (here : Code User Own)
    (record : List (Occurs User Own Local)) : Prop :=
  ∃ events, events.filter recorded = record ∧
    ∀ {partly : Prop} later last, here.Advances partly program nexts later last →
      code.Advances partly program [] (events ++ later) last

variable {program}
variable {code here here' : Code User Own} {nexts nexts' : List (Result Own → Code User Own)}
variable {record passed : List (Occurs User Own Local)} {last : Option (Result Own)}

theorem leads_start (code : Code User Own) : Leads program code [] code [] :=
  ⟨[], rfl, fun _ _ run => run⟩

theorem Leads.extend
    (leads : Leads program code nexts here record) (passed : List (Occurs User Own Local))
    (goesOn : ∀ {partly : Prop} later last, here'.Advances partly program nexts' later last →
      here.Advances partly program nexts (passed ++ later) last) :
    Leads program code nexts' here' (record ++ passed.filter recorded) := by
  obtain ⟨events, rfl, runs⟩ := leads
  refine ⟨events ++ passed, List.filter_append .., fun later last run => ?_⟩
  rw [List.append_assoc]
  exact runs _ _ (goesOn later last run)

theorem Leads.performed
    {effect : Effect User Local} {next : effect.Reply Own → Code User Own}
    (leads : Leads program code nexts here record)
    (performs : here.instr program = .perform effect next)
    (outcome : effect.Outcome Own) :
    Leads program code nexts (next (effect.reply outcome))
      (record ++ [.performed effect outcome]) :=
  leads.extend [.performed effect outcome] fun _ _ run => .perform performs run

theorem Leads.waited
    (leads : Leads program code nexts here record) (waits : here.instr program = .wait here') :
    Leads program code nexts here' (record ++ [.waited]) :=
  leads.extend [.waited] fun _ _ run => .wait waits run

/-- A suspension leaves no record. -/
theorem Leads.suspended
    (leads : Leads program code nexts here record)
    (suspends : here.instr program = .suspend here') :
    Leads program code nexts here' record := by
  have extended : Leads program code nexts here' (record ++ []) :=
    leads.extend [.suspended] fun _ _ run => .resume suspends run
  rwa [List.append_nil] at extended

theorem Leads.awaited
    {next : Result Own → Code User Own}
    (leads : Leads program code nexts here record)
    (awaits : here.instr program = .await here' next) :
    Leads program code (next :: nexts) here' record := by
  obtain ⟨events, same, runs⟩ := leads
  exact ⟨events, same, fun _ _ run => runs _ _ (.await awaits run)⟩

theorem Leads.returned
    {next : Result Own → Code User Own} {value : Result Own}
    (leads : Leads program code (next :: nexts) here record)
    (returns : here.instr program = .ret value) :
    Leads program code nexts (next value) record := by
  obtain ⟨events, same, runs⟩ := leads
  exact ⟨events, same, fun _ _ run => runs _ _ (.ret returns run)⟩

theorem Leads.recorded
    (leads : Leads program code nexts here record)
    (ends : here.Executes program nexts passed last) :
    Recorded program code (record ++ passed.filter Recording.recorded) last := by
  obtain ⟨events, rfl, runs⟩ := leads
  exact ⟨events ++ passed, List.filter_append .., runs _ _ ends⟩

/-- An execution may be cut off where it has come to. -/
theorem Leads.begun (leads : Leads program code nexts here record) : Begun program code record := by
  obtain ⟨events, same, runs⟩ := leads
  exact ⟨events ++ [], none, by rw [List.append_nil, same], runs [] none (.stops trivial)⟩

theorem Recorded.begun (recorded : Recorded program code record last) :
    Begun program code record := by
  obtain ⟨events, same, run⟩ := recorded
  exact ⟨events, last, same, run.partly⟩

/-- How far the running coroutine is on its way to a suspension. -/
inductive Way (state : ScheduleType)
    (instr : Instr (Code User Own) (Effect User Local) (Result Own) (Effect.Reply Own)) : Prop
  | calm (calm : Code.Calm instr) (runs : state = .run)
  | parking {steps : List (ParkStep SocketT)} {next : Code User Own}
      (parks : instr = Code.parkInstr next steps) (parksOnce : next.ParksOnce)
      (runs : state = .run ∨ state = .wait)
      (waits : steps.count .wait = if state = .run then 1 else 0)

theorem way_of_parksOnce
    (program : User → UserInstr User Own Local) (parksOnce : code.ParksOnce) :
    Way .run (code.instr program) := by
  rcases Code.calm_or_park program parksOnce with calm | ⟨steps, next, parks, waits, -, after⟩
  · exact .calm calm rfl
  · exact .parking parks after (Or.inl rfl) waits

/-- A coroutine that awaits or returns is not on its way to suspension. -/
theorem Way.runs
    {state : ScheduleType}
    {instr : Instr (Code User Own) (Effect User Local) (Result Own) (Effect.Reply Own)}
    (way : Way state instr) (suspend : ∀ after, instr ≠ .suspend after)
    (wait : ∀ after, instr ≠ .wait after)
    (perform : ∀ effect after, instr ≠ .perform effect after) :
    Code.Calm instr ∧ state = .run := by
  cases way with
  | calm calm runs => exact ⟨calm, runs⟩
  | @parking steps next parks =>
      rcases Code.parkInstr_cases steps next with ⟨after, is⟩ | ⟨after, is⟩ | ⟨effect, after, is⟩
      · exact absurd (parks.trans is) (suspend after)
      · exact absurd (parks.trans is) (wait after)
      · exact absurd (parks.trans is) (perform effect after)

variable (program) in
/-- A call of `one_step` on a task that has started with this code. -/
def outline (code : Code User Own) : Outline (system program kernel) where
  Running nexts here r :=
    Leads program code nexts here r.record ∧
      (∀ next ∈ nexts, ∀ result, (next result).ParksOnce) ∧ Way r.state (here.instr program)
  Resting nexts here r :=
    Leads program code nexts here r.record ∧ Reactor.ParkOnce nexts here ∧ r.state = .run
  Suspended nexts here r :=
    Leads program code nexts here r.record ∧ Reactor.ParkOnce nexts here ∧
      (r.state = .run ∨ r.state = .wait) ∧ Recorded program code r.record none
  Finished value r := Recorded program code r.record (some value)
  perform := by
    rintro nexts here r effect next ⟨leads, below, way⟩ body
    replace body : here.instr program = .perform effect next := body
    rw [body] at way
    refine ⟨leads.performed body _, below, ?_⟩
    cases way with
    | calm calm runs =>
        cases calm with
        | perform calm parksOnce =>
            change Way r.state _
            rw [runs]
            exact way_of_parksOnce program (parksOnce _)
    | parking parks parksOnce runs waits =>
        obtain ⟨arm, rest, rfl, -, notWait, -, after⟩ := Code.parkInstr_eq_perform parks.symm
        rw [List.count_cons_of_ne notWait] at waits
        rw [after]
        exact .parking rfl parksOnce runs waits
  wait := by
    rintro nexts here r next ⟨leads, below, way⟩ body
    replace body : here.instr program = .wait next := body
    rw [body] at way
    refine ⟨leads.waited body, below, ?_⟩
    cases way with
    | calm calm => cases calm
    | parking parks parksOnce runs waits =>
        obtain ⟨rest, rfl, rfl⟩ := Code.parkInstr_eq_wait parks.symm
        rw [List.count_cons_self] at waits
        refine .parking rfl parksOnce (Or.inr rfl) ?_
        split_ifs at waits
        exact Nat.succ.inj waits
  suspend := by
    rintro nexts here r next ⟨leads, below, way⟩ body
    replace body : here.instr program = .suspend next := body
    rw [body] at way
    have record := leads.recorded (.rest body)
    rw [show [Occurrence.suspended].filter recorded = [] from rfl, List.append_nil] at record
    cases way with
    | calm calm runs =>
        cases calm with
        | suspend parksOnce =>
            exact ⟨leads.suspended body, ⟨parksOnce, below⟩, Or.inl runs, record⟩
    | parking parks parksOnce runs waits =>
        obtain ⟨rfl, rfl⟩ := Code.parkInstr_eq_suspend parks.symm
        exact ⟨leads.suspended body, ⟨parksOnce, below⟩, runs, record⟩
  await := by
    rintro nexts here r child next ⟨leads, below, way⟩ body
    replace body : here.instr program = .await child next := body
    rw [body] at way
    have record := leads.recorded (.handOver body)
    rw [List.filter_nil, List.append_nil] at record
    obtain ⟨calm, runs⟩ := way.runs (by simp) (by simp) (by simp)
    cases calm with
    | await parksOnce parksOnceNext =>
        refine ⟨leads.awaited body, ⟨parksOnce, ?_⟩, Or.inl runs, record⟩
        exact List.forall_mem_cons.mpr ⟨parksOnceNext, below⟩
  awake := by
    rintro nexts here r value next ⟨-, -, way⟩ body
    replace body : here.instr program = .ret value := body
    rw [body] at way
    obtain ⟨-, runs⟩ := way.runs (by simp) (by simp) (by simp)
    change r.state ≠ .wait
    rw [runs]
    decide
  ret := by
    rintro nexts here r value next frames handle ⟨leads, below, way⟩ body -
    replace body : here.instr program = .ret value := body
    rw [body] at way
    obtain ⟨-, runs⟩ := way.runs (by simp) (by simp) (by simp)
    obtain ⟨parksOnce, below⟩ := List.forall_mem_cons.mp below
    refine ⟨leads.returned body, below, ?_⟩
    change Way r.state _
    rw [runs]
    exact way_of_parksOnce program (parksOnce value)
  finish := by
    rintro here r value ⟨leads, -, -⟩ body
    have record := leads.recorded (.finish body)
    rwa [List.filter_nil, List.append_nil] at record
  start := by
    rintro nexts here r frames handle ⟨leads, ⟨parksOnce, below⟩, runs⟩ - -
    refine ⟨leads, below, ?_⟩
    change Way r.state _
    rw [runs]
    exact way_of_parksOnce program parksOnce

/-! ## Calls of `one_step` -/

variable (program) in
/-- Where a task that has started with this code may be between two calls; its state
and what is outside may change meanwhile. -/
inductive Called (code : Code User Own) :
    Frames (Code User Own) (Result Own) → Recording User Own Local Outside →
      Option ScheduleType → Prop
  | start (outside : Outside) : Called code (Frames.ofCode code) ⟨.run, outside, []⟩ none
  | call {frames frames' : Frames (Code User Own) (Result Own)}
      {r r' : Recording User Own Local Outside} {before : Option ScheduleType}
      {result : ScheduleType} {fuel : Nat}
      (called : Called code frames r before) (unfinished : before ≠ some .done)
      (ran : (system program kernel).oneStep fuel frames r = .ok (result, frames', r')) :
      Called code frames' r' (some result)
  | meanwhile {frames : Frames (Code User Own) (Result Own)}
      {r : Recording User Own Local Outside} {result : Option ScheduleType}
      (called : Called code frames r result) (outside : Outside) :
      Called code frames { r with outside := outside } result
  | wake {frames : Frames (Code User Own) (Result Own)}
      {r : Recording User Own Local Outside} {result : Option ScheduleType}
      (called : Called code frames r result) :
      Called code frames { r with state := .run } result

/-- What the calls have recorded is what an execution leaves. -/
structure Replayed
    (program : User → UserInstr User Own Local) (code : Code User Own)
    (frames : Frames (Code User Own) (Result Own)) (r : Recording User Own Local Outside)
    (result : Option ScheduleType) : Prop where
  finished : result = some .done →
    ∃ value, frames.FinishedWith value ∧ Recorded program code r.record (some value)
  unfinished : result ≠ some .done →
    (r.state = .run ∨ r.state = .wait) ∧ frames.SuspendedAt fun nexts here =>
      Leads program code nexts here r.record ∧ Reactor.ParkOnce nexts here
  rests : result ≠ some .done → result ≠ none → Recorded program code r.record none

theorem replayed_of_result
    {code : Code User Own} {frames : Frames (Code User Own) (Result Own)}
    {r : Recording User Own Local Outside} {result : ScheduleType}
    (left : (outline program kernel code).Result result frames r) :
    Replayed program code frames r (some result) := by
  obtain ⟨rfl, value, finished, record⟩ | ⟨rfl, suspended⟩ := left
  · exact ⟨fun _ => ⟨value, finished, record⟩, fun unfinished => absurd rfl unfinished,
      fun unfinished => absurd rfl unfinished⟩
  · have place := suspended.imp fun nexts here held => And.intro held.1 held.2.1
    obtain ⟨-, -, -, -, -, -, -, -, state, record⟩ := suspended
    refine ⟨fun done => ?_, fun _ => ⟨state, place⟩, fun _ _ => record⟩
    change some r.state = some .done at done
    obtain runs | waits := state
    · rw [runs] at done
      cases done
    · rw [waits] at done
      cases done

/-- Whatever calls of `one_step` there were, an execution of the code leaves their
record. -/
theorem replayed_of_called
    {code : Code User Own} (parksOnce : code.ParksOnce)
    {frames : Frames (Code User Own) (Result Own)} {r : Recording User Own Local Outside}
    {result : Option ScheduleType}
    (called : Called program kernel code frames r result) :
    Replayed program code frames r result := by
  induction called with
  | start outside =>
      have place : Leads program code [] code [] ∧ Reactor.ParkOnce [] code :=
        ⟨leads_start code, parksOnce, List.forall_mem_nil _⟩
      refine ⟨fun done => ?_, fun _ => ⟨Or.inl rfl, Frames.suspendedAt_ofCode place⟩,
        fun _ started => absurd rfl started⟩
      cases done
  | @call frames frames' r r' before result fuel _ unfinished ran inductionHypothesis =>
      obtain ⟨state, suspended⟩ := inductionHypothesis.unfinished unfinished
      have awake : (system program kernel).state r ≠ .wait := by
        intro waits
        rw [System.oneStep, if_pos waits] at ran
        cases ran
      have rests : frames.SuspendedAt fun nexts here =>
          (outline program kernel code).Resting nexts here r :=
        suspended.imp fun nexts here held => ⟨held.1, held.2, state.resolve_right awake⟩
      rcases (outline program kernel code).oneStep_result rests awake fuel with
        stuck | ⟨result', frames'', r'', returned, left⟩
      · cases stuck.symm.trans ran
      · obtain ⟨rfl, same⟩ := Prod.mk.inj (Except.ok.inj (returned.symm.trans ran))
        obtain ⟨rfl, rfl⟩ := Prod.mk.inj same
        exact replayed_of_result kernel left
  | meanwhile _ outside inductionHypothesis =>
      exact ⟨inductionHypothesis.finished, inductionHypothesis.unfinished,
        inductionHypothesis.rests⟩
  | wake _ inductionHypothesis =>
      exact ⟨inductionHypothesis.finished,
        fun unfinished => ⟨Or.inl rfl, (inductionHypothesis.unfinished unfinished).2⟩,
        inductionHypothesis.rests⟩

/-- The record of a task that was called is that of an execution, which has returned the
task's value if the task has finished. -/
theorem recorded_of_called
    {code : Code User Own} (parksOnce : code.ParksOnce)
    {frames : Frames (Code User Own) (Result Own)} {r : Recording User Own Local Outside}
    {result : ScheduleType}
    (called : Called program kernel code frames r (some result)) :
    ∃ last, Recorded program code r.record last ∧
      (result = .done → ∃ value, last = some value ∧ frames.FinishedWith value) := by
  have replayed := replayed_of_called kernel parksOnce called
  by_cases done : result = .done
  · obtain ⟨value, finished, record⟩ := replayed.finished (congrArg some done)
    exact ⟨some value, record, fun _ => ⟨value, rfl, finished⟩⟩
  · have unfinished : some result ≠ some .done := fun same => done (Option.some.inj same)
    exact ⟨none, replayed.rests unfinished nofun, fun same => absurd same done⟩

/-! ## Properties of records -/

theorem forall_mem_filter_recorded
    {holds : Occurs User Own Local → Prop} (suspended : holds .suspended)
    {events : List (Occurs User Own Local)} :
    (∀ occurrence ∈ events.filter recorded, holds occurrence) ↔
      ∀ occurrence ∈ events, holds occurrence := by
  refine ⟨fun each occurrence present => ?_, fun each occurrence present =>
    each occurrence (List.mem_of_mem_filter present)⟩
  cases occurrence with
  | suspended => exact suspended
  | _ => exact each _ (List.mem_filter.mpr ⟨present, rfl⟩)

theorem foldl_filter_recorded
    {State : Type} {advance : State → Occurs User Own Local → State}
    (suspended : ∀ state, advance state .suspended = state)
    (events : List (Occurs User Own Local)) (state : State) :
    (events.filter recorded).foldl advance state = events.foldl advance state := by
  induction events generalizing state with
  | nil => rfl
  | cons occurrence events inductionHypothesis =>
      cases occurrence with
      | suspended =>
          rw [List.foldl_cons, suspended]
          exact inductionHypothesis state
      | _ => exact inductionHypothesis _

theorem along_filter_recorded
    {State : Type} {advance : State → Occurs User Own Local → State}
    {property : State → Occurs User Own Local → Prop}
    (suspended : ∀ state, advance state .suspended = state)
    (holds : ∀ state, property state .suspended)
    {events : List (Occurs User Own Local)} {state : State}
    (along : Along advance property state (events.filter recorded)) :
    Along advance property state events := by
  induction events generalizing state with
  | nil => trivial
  | cons occurrence events inductionHypothesis =>
      cases occurrence with
      | suspended =>
          refine ⟨holds state, ?_⟩
          rw [suspended]
          exact inductionHypothesis along
      | _ => exact ⟨along.1, inductionHypothesis along.2⟩

end Recording

end Cppio
