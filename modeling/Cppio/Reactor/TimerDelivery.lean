import Cppio.Reactor.TimerPool
import Mathlib.Data.List.Range
import Mathlib.Order.Nat
import Mathlib.Tactic.ByContra

/-!
# Delivery of timers over whole runs

A run of the pool is a list of `add` and `get_delay` calls with the clock
reading each of them took.  The module compares the `wake()` calls of every
`get_delay` with the adds whose deadline it is the first to reach.  The two
agree on a run exactly when no add meets a pending entry of the same deadline
and comes due later: the set drops such an add.
-/

namespace Cppio

variable {Task : Type}

/-- A call on the pool, with the clock reading it takes. -/
inductive TimerCall (Task : Type)
  | add (now delay : Int) (task : Task)
  | getDelay (now : Int)
  deriving DecidableEq

namespace TimerPool

/-- The pool after one call. -/
def apply (pool : TimerPool Task) : TimerCall Task → TimerPool Task
  | .add now delay task => pool.add now delay task
  | .getDelay now => (pool.getDelay now).pool

/-- The pool after the given calls. -/
def after (calls : List (TimerCall Task)) : TimerPool Task :=
  calls.foldl apply empty

/-- The tasks that the call at `index` wakes. -/
def wokenAt (calls : List (TimerCall Task)) (index : Nat) : List Task :=
  match calls[index]? with
  | some (.getDelay now) => ((after (calls.take index)).getDelay now).woken
  | _ => []

/-- The deadline and task that the call at `index` adds. -/
def addedAt (calls : List (TimerCall Task)) (index : Nat) : Option (DelayFor Task) :=
  match calls[index]? with
  | some (.add now delay task) => some ⟨now + delay, task⟩
  | _ => none

/-- The call at `index` is a `get_delay` whose reading is at or past `deadline`. -/
def passes (calls : List (TimerCall Task)) (index : Nat) (deadline : Int) : Bool :=
  match calls[index]? with
  | some (.getDelay now) => decide (deadline ≤ now)
  | _ => false

/-- The call at `poll` is the first `get_delay` at or past the deadline of the
add at `index`, and that add is for `task`. -/
def comesDue [DecidableEq Task]
    (calls : List (TimerCall Task)) (index poll : Nat) (task : Task) : Bool :=
  match addedAt calls index with
  | none => false
  | some entry =>
      decide (entry.task = task) && decide (index < poll) &&
        passes calls poll entry.when &&
        decide (∀ between < poll, index < between →
          passes calls between entry.when = false)

/-- Every call wakes each task once for every add of that task that comes due
at the call, and not otherwise. -/
def ExactlyOnce [DecidableEq Task] (calls : List (TimerCall Task)) : Prop :=
  ∀ poll task,
    (wokenAt calls poll).count task =
      (List.range poll).countP fun index => comesDue calls index poll task

/-- Two adds of one deadline, with no `get_delay` at or past it in between. -/
def Collides (calls : List (TimerCall Task)) (first second : Nat) : Prop :=
  ∃ earlier later,
    addedAt calls first = some earlier ∧ addedAt calls second = some later ∧
      first < second ∧ earlier.when = later.when ∧
        ∀ between, first < between → between < second →
          passes calls between later.when = false

/-- Some `get_delay` after the add at `index` reaches its deadline. -/
def EventuallyDue (calls : List (TimerCall Task)) (index : Nat) : Prop :=
  ∃ entry poll, addedAt calls index = some entry ∧ index < poll ∧
    passes calls poll entry.when = true

/-- The add at `index` joined the set. -/
def Kept (calls : List (TimerCall Task)) (index : Nat) : Prop :=
  ∀ first, ¬Collides calls first index

/-- No call before `count` passed the deadline of the add at `index`. -/
def Waiting
    (calls : List (TimerCall Task)) (count index : Nat) (deadline : Int) : Prop :=
  ∀ between < count, index < between → passes calls between deadline = false

open Classical in
/-- The entry that the add at `index` still has in the set after `count` calls. -/
noncomputable def live
    (calls : List (TimerCall Task)) (count index : Nat) : Option (DelayFor Task) :=
  (addedAt calls index).filter fun entry =>
    decide (Kept calls index ∧ Waiting calls count index entry.when)

theorem live_eq_some
    {calls : List (TimerCall Task)} {count index : Nat} {entry : DelayFor Task} :
    live calls count index = some entry ↔
      addedAt calls index = some entry ∧ Kept calls index ∧
        Waiting calls count index entry.when := by
  simp [live, Option.filter_eq_some_iff]

theorem passes_of_addedAt
    {calls : List (TimerCall Task)} {index : Nat} {entry : DelayFor Task}
    (added : addedAt calls index = some entry)
    (deadline : Int) :
    passes calls index deadline = false := by
  unfold addedAt at added
  unfold passes
  split at added <;> simp_all

theorem passes_of_getDelay
    {calls : List (TimerCall Task)} {index : Nat} {now : Int}
    (isPoll : calls[index]? = some (.getDelay now))
    (deadline : Int) :
    passes calls index deadline = decide (deadline ≤ now) := by
  simp [passes, isPoll]

theorem after_take_succ
    {calls : List (TimerCall Task)} {count : Nat} {call : TimerCall Task}
    (isCall : calls[count]? = some call) :
    after (calls.take (count + 1)) = (after (calls.take count)).apply call := by
  rw [List.take_add_one, isCall]
  simp [after]

/-- One more call extends the wait of a pending add by that call. -/
theorem waiting_succ
    {calls : List (TimerCall Task)} {count index : Nat} {deadline : Int}
    (before : index < count) :
    Waiting calls (count + 1) index deadline ↔
      Waiting calls count index deadline ∧ passes calls count deadline = false := by
  constructor
  · intro waiting
    exact ⟨fun between less => waiting between (by omega),
      waiting count (by omega) before⟩
  · rintro ⟨waiting, last⟩ between less later
    rcases Nat.lt_succ_iff_lt_or_eq.mp less with old | rfl
    · exact waiting between old later
    · exact last

/-- The first of the adds of one pending deadline joined the set. -/
theorem exists_live_of_collides
    {calls : List (TimerCall Task)} {first count : Nat}
    (collides : Collides calls first count) :
    ∃ index entry later, index < count ∧ live calls count index = some entry ∧
      addedAt calls count = some later ∧ entry.when = later.when := by
  classical
  have candidates : ∃ index, Collides calls index count := ⟨first, collides⟩
  obtain ⟨earlier, later, added, addedLater, before, same, quiet⟩ :=
    Nat.find_spec candidates
  refine ⟨Nat.find candidates, earlier, later, before,
    live_eq_some.mpr ⟨added, ?_, ?_⟩, addedLater, same⟩
  · -- an add that the first one met would itself be an earlier candidate
    rintro other ⟨entry, entry', addedOther, addedFirst, less, same', quiet'⟩
    obtain rfl : entry' = earlier := Option.some.inj (addedFirst.symm.trans added)
    refine Nat.find_min candidates less
      ⟨entry, later, addedOther, addedLater, less.trans before,
        same'.trans same, fun between after until_ => ?_⟩
    rcases lt_trichotomy between (Nat.find candidates) with old | rfl | new
    · exact same ▸ quiet' between after old
    · exact passes_of_addedAt added _
    · exact quiet between new until_
  · intro between less after
    exact same ▸ quiet between after less

/-- An add that meets a live entry of its own deadline collides with it. -/
theorem collides_of_live
    {calls : List (TimerCall Task)} {index count : Nat} {entry later : DelayFor Task}
    (isLive : live calls count index = some entry)
    (before : index < count)
    (added : addedAt calls count = some later)
    (same : entry.when = later.when) :
    Collides calls index count := by
  obtain ⟨addedEntry, -, waiting⟩ := live_eq_some.mp isLive
  exact ⟨entry, later, addedEntry, added, before, same,
    fun between after until_ => same ▸ waiting between until_ after⟩

/-- An add leaves the earlier live entries as they are. -/
theorem filterMap_live_of_add
    {calls : List (TimerCall Task)} {count : Nat} {entry : DelayFor Task}
    (added : addedAt calls count = some entry) :
    (List.range count).filterMap (live calls (count + 1)) =
      (List.range count).filterMap (live calls count) := by
  apply List.filterMap_congr
  intro index inRange
  ext other
  rw [live_eq_some, live_eq_some, waiting_succ (List.mem_range.mp inRange)]
  simp [passes_of_addedAt added]

/-- A `get_delay` takes the reached entries away from the earlier live ones. -/
theorem filterMap_live_of_getDelay
    {calls : List (TimerCall Task)} {count : Nat} {now : Int}
    (isPoll : calls[count]? = some (.getDelay now)) :
    (List.range count).filterMap (live calls (count + 1)) =
      ((List.range count).filterMap (live calls count)).filter
        fun entry => !decide (entry.when ≤ now) := by
  rw [List.filter_filterMap]
  apply List.filterMap_congr
  intro index inRange
  ext entry
  rw [live_eq_some, waiting_succ (List.mem_range.mp inRange),
    Option.filter_eq_some_iff, live_eq_some, passes_of_getDelay isPoll]
  simp [and_assoc]

/-- An add puts its entry in the set exactly when it is kept. -/
theorem add_perm_live
    {calls : List (TimerCall Task)} {count : Nat} {now delay : Int} {task : Task}
    {pool : TimerPool Task}
    (isAdd : calls[count]? = some (.add now delay task))
    (contents : pool.tasks.Perm ((List.range count).filterMap (live calls count))) :
    (pool.add now delay task).tasks.Perm
      ((List.range (count + 1)).filterMap (live calls (count + 1))) := by
  have added : addedAt calls count = some ⟨now + delay, task⟩ := by
    simp [addedAt, isAdd]
  rw [List.range_succ, List.filterMap_append, filterMap_live_of_add added]
  by_cases kept : Kept calls count
  · have isLive : live calls (count + 1) count = some ⟨now + delay, task⟩ :=
      live_eq_some.mpr ⟨added, kept, fun between less after => by omega⟩
    have fresh : ∀ entry ∈ pool.tasks, entry.when ≠ now + delay := by
      intro entry present same
      obtain ⟨index, inRange, liveEntry⟩ :=
        List.mem_filterMap.mp (contents.mem_iff.mp present)
      exact kept index
        (collides_of_live liveEntry (List.mem_range.mp inRange) added same)
    have joined := (add_tasks_perm task fresh).trans (contents.cons _)
    simpa [isLive] using joined.trans (List.perm_append_singleton _ _).symm
  · have notLive : live calls (count + 1) count = none := by
      rw [Option.eq_none_iff_forall_ne_some]
      intro entry isLive
      exact kept (live_eq_some.mp isLive).2.1
    obtain ⟨first, collides⟩ : ∃ first, Collides calls first count := by
      simpa [Kept] using kept
    obtain ⟨index, entry, later, before, isLive, addedLater, same⟩ :=
      exists_live_of_collides collides
    obtain rfl : later = ⟨now + delay, task⟩ :=
      Option.some.inj (addedLater.symm.trans added)
    have present : entry ∈ pool.tasks :=
      contents.mem_iff.mpr (List.mem_filterMap.mpr
        ⟨index, List.mem_range.mpr before, isLive⟩)
    have dropped := add_tasks_eq_self task present same
    simpa [dropped, notLive] using contents

/-- After `count` calls the set holds exactly the adds that joined it and that
no `get_delay` has reached. -/
theorem after_tasks_perm
    (calls : List (TimerCall Task)) (count : Nat) (bounded : count ≤ calls.length) :
    (after (calls.take count)).tasks.Perm
      ((List.range count).filterMap (live calls count)) := by
  induction count with
  | zero => simp [after, empty]
  | succ count inductionHypothesis =>
      have contents := inductionHypothesis (by omega)
      obtain ⟨call, isCall⟩ : ∃ call, calls[count]? = some call :=
        ⟨calls[count], List.getElem?_eq_getElem (by omega)⟩
      rw [after_take_succ isCall]
      cases call with
      | add now delay task => exact add_perm_live isCall contents
      | getDelay now =>
          have notLive : live calls (count + 1) count = none := by
            simp [live, addedAt, isCall]
          rw [List.range_succ, List.filterMap_append, filterMap_live_of_getDelay isCall,
            List.filterMap_cons_none notLive, List.filterMap_nil, List.append_nil,
            apply, getDelay_pool]
          exact contents.filter _

variable [DecidableEq Task]

theorem comesDue_eq_true
    {calls : List (TimerCall Task)} {index poll : Nat} {task : Task} :
    comesDue calls index poll task = true ↔
      ∃ entry, addedAt calls index = some entry ∧ entry.task = task ∧
        index < poll ∧ passes calls poll entry.when = true ∧
        Waiting calls poll index entry.when := by
  unfold comesDue Waiting
  cases addedAt calls index with
  | none => simp
  | some entry => simp [and_assoc]

open Classical in
/-- A call wakes a task once for each add of it that joined the set and comes
due at the call. -/
theorem count_wokenAt
    (calls : List (TimerCall Task)) (poll : Nat) (task : Task) :
    (wokenAt calls poll).count task =
      (List.range poll).countP fun index =>
        comesDue calls index poll task && decide (Kept calls index) := by
  by_cases isPoll : ∃ now, calls[poll]? = some (.getDelay now)
  · obtain ⟨now, isPoll⟩ := isPoll
    have bounded : poll < calls.length := (List.getElem?_eq_some_iff.mp isPoll).1
    have contents := after_tasks_perm calls poll bounded.le
    have woken : wokenAt calls poll =
        ((after (calls.take poll)).due now).map DelayFor.task := by
      simp only [wokenAt, isPoll]
      exact getDelay_woken _ _
    rw [woken, List.count, List.countP_map, due, List.countP_filter,
      contents.countP_eq, List.countP_filterMap]
    apply List.countP_congr
    intro index inRange
    rw [Bool.and_eq_true, comesDue_eq_true]
    constructor
    · intro counted
      cases isLive : live calls poll index with
      | none => simp [isLive] at counted
      | some entry =>
          obtain ⟨added, kept, waiting⟩ := live_eq_some.mp isLive
          simp only [isLive, Option.map_some, Option.getD_some, Function.comp_apply,
            Bool.and_eq_true, beq_iff_eq, decide_eq_true_eq] at counted
          exact ⟨⟨entry, added, counted.1, List.mem_range.mp inRange,
            by simp [passes_of_getDelay isPoll, counted.2], waiting⟩, by simpa using kept⟩
    · rintro ⟨⟨entry, added, isTask, -, passed, waiting⟩, kept⟩
      have isLive : live calls poll index = some entry :=
        live_eq_some.mpr ⟨added, by simpa using kept, waiting⟩
      rw [passes_of_getDelay isPoll] at passed
      simpa [isLive, isTask] using passed
  · have silent : wokenAt calls poll = [] := by
      unfold wokenAt
      split
      · exact absurd ⟨_, ‹_›⟩ isPoll
      · rfl
    have noPass : ∀ deadline, passes calls poll deadline = false := by
      intro deadline
      unfold passes
      split
      · exact absurd ⟨_, ‹_›⟩ isPoll
      · rfl
    rw [silent, List.count_nil, eq_comm, List.countP_eq_zero]
    intro index _ counted
    rw [Bool.and_eq_true, comesDue_eq_true] at counted
    obtain ⟨⟨entry, -, -, -, passed, -⟩, -⟩ := counted
    simp [noPass] at passed

/-- The pool wakes every added timer exactly once, at the first `get_delay` at
or past its deadline, if and only if no two adds have one deadline with no
`get_delay` at or past it between them and one after the second. -/
theorem exactlyOnce_iff (calls : List (TimerCall Task)) :
    ExactlyOnce calls ↔
      ∀ first second, Collides calls first second → ¬EventuallyDue calls second := by
  classical
  constructor
  · rintro exact_ first second collides ⟨entry, poll, added, before, passed⟩
    have reached : ∃ poll, second < poll ∧ passes calls poll entry.when = true :=
      ⟨poll, before, passed⟩
    obtain ⟨firstBefore, firstPassed⟩ := Nat.find_spec reached
    have isDue : comesDue calls second (Nat.find reached) entry.task = true := by
      refine comesDue_eq_true.mpr ⟨entry, added, rfl, firstBefore, firstPassed, ?_⟩
      intro between less after
      by_contra passedBefore
      exact Nat.find_min reached less ⟨after, by simpa using passedBefore⟩
    have counts := exact_ (Nat.find reached) entry.task
    -- the call counts the second add as due but does not wake for it
    rw [count_wokenAt,
      List.countP_eq_countP_filter_add (List.range (Nat.find reached))
        (fun index => comesDue calls index (Nat.find reached) entry.task)
        (fun index => decide (Kept calls index)),
      List.countP_filter] at counts
    have missed : 0 < ((List.range (Nat.find reached)).filter
        fun index => !decide (Kept calls index)).countP
          fun index => comesDue calls index (Nat.find reached) entry.task := by
      rw [List.countP_pos_iff]
      refine ⟨second, List.mem_filter.mpr ⟨List.mem_range.mpr firstBefore, ?_⟩, isDue⟩
      have dropped : ¬Kept calls second := fun kept => kept first collides
      simpa using dropped
    omega
  · intro harmless poll task
    rw [count_wokenAt]
    apply List.countP_congr
    intro index _
    rw [Bool.and_eq_true]
    refine ⟨fun both => both.1, fun isDue => ⟨isDue, ?_⟩⟩
    obtain ⟨entry, added, -, before, passed, -⟩ := comesDue_eq_true.mp isDue
    have kept : Kept calls index := fun first collides =>
      harmless first index collides ⟨entry, poll, added, before, passed⟩
    simpa using kept

/-- Two sleeps that end at the same instant: the second is never woken. -/
theorem not_exactlyOnce_equal_deadlines :
    ¬ExactlyOnce [.add 0 5 "first", .add 0 5 "second", .getDelay 5] := by
  intro exact_
  exact absurd (exact_ 2 "second") (by decide)

end TimerPool

end Cppio
