import Cppio.Library.SignedInteger
import Cppio.Reactor.TimerLoop

/-!
# Timers at machine widths

Clock readings, deadlines and delays are signed 64-bit counts of nanoseconds,
and `epoll_wait` takes a signed 32-bit count of milliseconds.  The sum in `add`
and the difference in `get_delay` are undefined out of range, and the timeout is
converted silently.
-/

namespace Cppio

/-- `std::chrono::nanoseconds`, and a reading of the clock. -/
abbrev Nanoseconds :=
  Signed 64

/-- `int`. -/
abbrev CInt :=
  Signed 32

/-- `std::chrono::seconds(1)`. -/
def Nanoseconds.second : Nanoseconds where
  value := Cppio.second
  fits := by decide

/-- The delay of `get_delay` when no timer is set. -/
def Nanoseconds.zero : Nanoseconds where
  value := 0
  fits := by decide

/-- A pool whose deadlines are readings of the clock. -/
structure MachinePool (Task : Type) extends TimerPool Task where
  fits : ∀ entry ∈ tasks, Fits 64 entry.when

/-- What one call of `get_delay` does, at machine widths. -/
structure MachinePoll (Task : Type) where
  woken : List Task
  pool : MachinePool Task
  waitTime : Nanoseconds

namespace MachinePool

variable {Task : Type}

def empty : MachinePool Task where
  toTimerPool := TimerPool.empty
  fits := fun _ absent => nomatch absent

/-- `high_resolution_clock::now() + delay`. -/
def deadline (now delay : Nanoseconds) : Option Nanoseconds :=
  now.add delay

/-- `timer_pool::add`, with the clock reading `now`. -/
def add (pool : MachinePool Task) (now delay : Nanoseconds) (task : Task) :
    Option (MachinePool Task) :=
  (deadline now delay).map fun deadline =>
    { tasks := Keyed.insertUnique DelayFor.when ⟨deadline.value, task⟩ pool.tasks
      ordered := pool.ordered.insertUnique _
      fits := fun _ present =>
        (Keyed.mem_of_mem_insertUnique present).elim (fun new => new ▸ deadline.fits)
          (pool.fits _) }

/-- The loop of `get_delay`. -/
def getDelayLoop (now : Nanoseconds) :
    List (DelayFor Task) → Option (List Task × List (DelayFor Task) × Nanoseconds)
  | [] => some ([], [], ⟨0, by decide⟩)
  | task :: rest =>
      if task.when ≤ now.value then
        (getDelayLoop now rest).map fun (woken, left, waitTime) =>
          (task.task :: woken, left, waitTime)
      else
        (Signed.ofExact 64 (task.when - now.value)).map fun waitTime =>
          ([], task :: rest, waitTime)

/-- The loop does what it does with exact numbers, if the delay is in range. -/
theorem getDelayLoop_eq (now : Nanoseconds) (tasks : List (DelayFor Task)) :
    getDelayLoop now tasks =
      (Signed.ofExact 64 (TimerPool.getDelayLoop now.value tasks).2.2).map fun waitTime =>
        ((TimerPool.getDelayLoop now.value tasks).1,
          (TimerPool.getDelayLoop now.value tasks).2.1, waitTime) := by
  induction tasks with
  | nil => rfl
  | cons task rest inductionHypothesis =>
      rw [getDelayLoop, TimerPool.getDelayLoop]
      split_ifs
      · rw [inductionHypothesis, Option.map_map]
        rfl
      · rfl

theorem sublist_of_getDelayLoop
    {now : Nanoseconds} {tasks left : List (DelayFor Task)} {woken : List Task}
    {waitTime : Nanoseconds}
    (left_eq : getDelayLoop now tasks = some (woken, left, waitTime)) :
    left.Sublist tasks := by
  rw [getDelayLoop_eq, Option.map_eq_some_iff] at left_eq
  obtain ⟨waitTime, -, same⟩ := left_eq
  obtain ⟨-, same⟩ := Prod.mk.inj same
  obtain ⟨rfl, -⟩ := Prod.mk.inj same
  rw [TimerPool.getDelayLoop_eq]
  exact List.dropWhile_sublist _

/-- `timer_pool::get_delay`, with the clock reading `now`. -/
def getDelay (pool : MachinePool Task) (now : Nanoseconds) : Option (MachinePoll Task) :=
  match left_eq : getDelayLoop now pool.tasks with
  | none => none
  | some (woken, left, waitTime) =>
      some {
        woken := woken
        pool :=
          { tasks := left
            ordered := pool.ordered.sublist (sublist_of_getDelayLoop left_eq)
            fits := fun entry present =>
              pool.fits entry ((sublist_of_getDelayLoop left_eq).subset present) }
        waitTime := waitTime }

/-- `get_delay` is undefined if the exact delay is out of range, and does what it
does with exact numbers otherwise. -/
theorem getDelay_exact (pool : MachinePool Task) (now : Nanoseconds) :
    (pool.getDelay now).map (fun poll =>
      (⟨poll.woken, poll.pool.toTimerPool, poll.waitTime.value⟩ : Poll Task)) =
      if Fits 64 (pool.toTimerPool.getDelay now.value).waitTime then
        some (pool.toTimerPool.getDelay now.value)
      else none := by
  unfold getDelay
  split
  · next undefined =>
      rw [getDelayLoop_eq, Option.map_eq_none_iff] at undefined
      have outside : ¬Fits 64 (pool.toTimerPool.getDelay now.value).waitTime := fun fits => by
        obtain ⟨waitTime, defined⟩ := Signed.exists_ofExact.mpr fits
        exact nomatch undefined.symm.trans defined
      rw [if_neg outside]
      rfl
  · next woken left waitTime left_eq =>
      rw [getDelayLoop_eq, Option.map_eq_some_iff] at left_eq
      obtain ⟨exact, defined, same⟩ := left_eq
      have waits : exact.value = (pool.toTimerPool.getDelay now.value).waitTime :=
        Signed.ofExact_eq_some.mp defined
      simp only [Prod.mk.injEq] at same
      obtain ⟨rfl, rfl, rfl⟩ := same
      have inside : Fits 64 (pool.toTimerPool.getDelay now.value).waitTime :=
        waits ▸ exact.fits
      rw [if_pos inside, Option.map_some, waits]
      rfl

theorem getDelay_toTimerPool
    {pool : MachinePool Task} {now : Nanoseconds} {poll : MachinePoll Task}
    (defined : pool.getDelay now = some poll) :
    pool.toTimerPool.getDelay now.value =
      ⟨poll.woken, poll.pool.toTimerPool, poll.waitTime.value⟩ := by
  have exact := pool.getDelay_exact now
  rw [defined] at exact
  split_ifs at exact
  · exact (Option.some.inj exact).symm
  · exact nomatch exact

theorem add_toTimerPool
    {pool next : MachinePool Task} {now delay : Nanoseconds} {task : Task}
    (defined : pool.add now delay task = some next) :
    next.toTimerPool = pool.toTimerPool.add now.value delay.value task := by
  obtain ⟨stored, sets, rfl⟩ := Option.map_eq_some_iff.mp defined
  have sum : stored.value = now.value + delay.value := Signed.ofExact_eq_some.mp sets
  simp only [TimerPool.add, sum]

/-- `run`'s wait time: a second if no task is ready and no entry is left. -/
def runWaitTime (tasks : List Task) (waitTime : Nanoseconds) : Nanoseconds :=
  if tasks = [] ∧ waitTime.value = 0 then .second else waitTime

/-- The timeout that `epoll::run` hands to `epoll_wait`. -/
def timeout (waitTime : Nanoseconds) : CInt :=
  (waitTime.quotient 1000000).convert 32

/-- When `epoll_wait` returns at the latest, if it is called at `now`; it waits for
ever if the timeout is negative. -/
def blocksUntil (now : Nanoseconds) (timeout : CInt) : Option Int :=
  if timeout.value < 0 then none else some (now.value + timeout.value * 1000000)

/-- `epoll_wait`, called at `now`, does not block past `time`. -/
def BlocksAtMost (now : Nanoseconds) (timeout : CInt) (time : Int) : Prop :=
  ∃ ends, blocksUntil now timeout = some ends ∧ ends ≤ time

/-- The stored deadline is not earlier than the reading plus the delay. -/
def StoresInTime (pool : MachinePool Task) (now delay : Nanoseconds) (task : Task) : Prop :=
  ∃ stored next, deadline now delay = some stored ∧ pool.add now delay task = some next ∧
    (∃ entry ∈ next.tasks, entry.when = stored.value) ∧
      now.value + delay.value ≤ stored.value

/-- In `run`, with these tasks ready, `epoll_wait` does not block past a pending
deadline. -/
def BlocksInTime (tasks : List Task) (pool : MachinePool Task) (now : Nanoseconds) : Prop :=
  ∃ poll, pool.getDelay now = some poll ∧ ∀ entry ∈ poll.pool.tasks,
    BlocksAtMost now (timeout (runWaitTime (tasks ++ poll.woken) poll.waitTime)) entry.when

theorem storesInTime_iff
    (pool : MachinePool Task) (now : Nanoseconds) {delay : Nanoseconds} (task : Task)
    (nonnegative : 0 ≤ delay.value) :
    pool.StoresInTime now delay task ↔ now.value + delay.value < 2 ^ 63 := by
  have lower := now.fits.1
  constructor
  · rintro ⟨stored, next, defined, -⟩
    have sum : stored.value = now.value + delay.value := Signed.ofExact_eq_some.mp defined
    have upper := stored.fits.2
    omega
  · intro upper
    have inside : Fits 64 (now.value + delay.value) := by
      constructor <;> omega
    obtain ⟨stored, defined⟩ := Signed.exists_ofExact.mpr inside
    have sum : stored.value = now.value + delay.value := Signed.ofExact_eq_some.mp defined
    have sets : deadline now delay = some stored := defined
    refine ⟨stored, _, sets, by rw [add, sets, Option.map_some], ?_, sum.ge⟩
    exact Keyed.exists_mem_insertUnique DelayFor.when ⟨stored.value, task⟩ pool.tasks

theorem BlocksAtMost.trans
    {now : Nanoseconds} {timeout : CInt} {time later : Int}
    (blocks : BlocksAtMost now timeout time) (le : time ≤ later) :
    BlocksAtMost now timeout later :=
  let ⟨ends, until_eq, early⟩ := blocks
  ⟨ends, until_eq, early.trans le⟩

theorem blocksAtMost_timeout_iff
    (now : Nanoseconds) {waitTime : Nanoseconds} (nonnegative : 0 ≤ waitTime.value) :
    BlocksAtMost now (timeout waitTime) (now.value + waitTime.value) ↔
      waitTime.value / 1000000 % 2 ^ 32 < 2 ^ 31 := by
  have quotient : (waitTime.quotient 1000000).value = waitTime.value / 1000000 :=
    Int.tdiv_eq_ediv_of_nonneg nonnegative
  have sign : 0 ≤ (timeout waitTime).value ↔ _ := Signed.convert_nonneg_iff
  rw [quotient] at sign
  unfold BlocksAtMost blocksUntil
  split_ifs with negative
  · refine iff_of_false ?_ (by omega)
    rintro ⟨ends, never, -⟩
    cases never
  · have milliseconds : (timeout waitTime).value ≤ (waitTime.quotient 1000000).value :=
      Signed.convert_le (by rw [quotient]; omega)
    rw [quotient] at milliseconds
    refine iff_of_true ⟨_, rfl, ?_⟩ ?_ <;> omega

theorem getDelay_eq_some
    {pool : MachinePool Task} {now : Nanoseconds} {poll : MachinePoll Task}
    (defined : pool.getDelay now = some poll) :
    poll.waitTime.value = (pool.toTimerPool.getDelay now.value).waitTime ∧
      poll.pool.tasks = pool.later now.value := by
  have exact := getDelay_toTimerPool defined
  rw [← TimerPool.getDelay_pool, exact]
  exact ⟨rfl, rfl⟩

theorem exists_getDelay
    {pool : MachinePool Task} {now : Nanoseconds}
    (fits : Fits 64 (pool.toTimerPool.getDelay now.value).waitTime) :
    ∃ poll, pool.getDelay now = some poll := by
  have exact := pool.getDelay_exact now
  rw [if_pos fits] at exact
  obtain ⟨poll, defined, -⟩ := Option.map_eq_some_iff.mp exact
  exact ⟨poll, defined⟩

theorem blocksInTime_iff (tasks : List Task) (pool : MachinePool Task) (now : Nanoseconds) :
    pool.BlocksInTime tasks now ↔ ∀ entry, (pool.later now.value).head? = some entry →
      entry.when - now.value < 2 ^ 63 ∧
        (entry.when - now.value) / 1000000 % 2 ^ 32 < 2 ^ 31 := by
  cases left : pool.later now.value with
  | nil =>
      have fits : Fits 64 (pool.toTimerPool.getDelay now.value).waitTime := by
        rw [TimerPool.getDelay_waitTime_eq_zero left]
        decide
      obtain ⟨poll, defined⟩ := exists_getDelay fits
      refine iff_of_true ⟨poll, defined, fun entry present => ?_⟩ fun entry first => nomatch first
      rw [(getDelay_eq_some defined).2, left] at present
      cases present
  | cons entry rest =>
      have exact := TimerPool.getDelay_waitTime_of_later left
      have ordered : Keyed.Strict DelayFor.when (entry :: rest) :=
        left ▸ pool.ordered.sublist List.filter_sublist
      have future : now.value < entry.when :=
        (TimerPool.mem_later.mp (left ▸ List.mem_cons_self)).2
      have waits : ∀ {poll}, pool.getDelay now = some poll → ∀ tasks : List Task,
          runWaitTime tasks poll.waitTime = poll.waitTime ∧
            poll.waitTime.value = entry.when - now.value := by
        intro poll defined tasks
        have waitTime := (getDelay_eq_some defined).1.trans exact
        refine ⟨if_neg fun zero => ?_, waitTime⟩
        omega
      have first : ∀ {other}, (entry :: rest).head? = some other ↔ entry = other := by simp
      simp only [first, forall_eq']
      constructor
      · rintro ⟨poll, defined, inTime⟩
        obtain ⟨same, waitTime⟩ := waits defined (tasks ++ poll.woken)
        have upper := poll.waitTime.fits.2
        have present : entry ∈ poll.pool.tasks := by
          rw [(getDelay_eq_some defined).2, left]
          exact List.mem_cons_self
        have blocks := inTime entry present
        rw [same, ← show now.value + poll.waitTime.value = entry.when by omega,
          blocksAtMost_timeout_iff now (by omega), waitTime] at blocks
        exact ⟨by omega, blocks⟩
      · rintro ⟨upper, lower⟩
        have fits : Fits 64 (pool.toTimerPool.getDelay now.value).waitTime := by
          rw [exact]
          constructor <;> omega
        obtain ⟨poll, defined⟩ := exists_getDelay fits
        obtain ⟨same, waitTime⟩ := waits defined (tasks ++ poll.woken)
        rw [← waitTime] at lower
        have blocks := (blocksAtMost_timeout_iff now (by omega)).mpr lower
        refine ⟨poll, defined, fun other present => ?_⟩
        rw [(getDelay_eq_some defined).2, left] at present
        rw [same]
        apply blocks.trans
        rcases List.mem_cons.mp present with rfl | inRest
        · omega
        · have earlier := (List.pairwise_cons.mp ordered).1 other inRest
          omega

/-- At machine widths the stored deadline is exact up to the greatest reading, and
`epoll_wait` keeps to the earliest deadline if its distance is in range and its
milliseconds modulo `2 ^ 32` are nonnegative as an `int`. -/
theorem inTime_iff (pool : MachinePool Task) (now : Nanoseconds) :
    (∀ (delay : Nanoseconds) (task : Task), 0 ≤ delay.value →
      (pool.StoresInTime now delay task ↔ now.value + delay.value < 2 ^ 63)) ∧
    ∀ tasks : List Task,
      (pool.BlocksInTime tasks now ↔ ∀ entry, (pool.later now.value).head? = some entry →
        entry.when - now.value < 2 ^ 63 ∧
          (entry.when - now.value) / 1000000 % 2 ^ 32 < 2 ^ 31) :=
  ⟨fun _ task nonnegative => pool.storesInTime_iff now task nonnegative,
    fun tasks => pool.blocksInTime_iff tasks now⟩

/-- A pool with one entry. -/
def single (when : Nanoseconds) (task : Task) : MachinePool Task where
  tasks := [⟨when.value, task⟩]
  ordered := List.pairwise_singleton _ _
  fits := fun _ present => List.mem_singleton.mp present ▸ when.fits

/-- An hour is in time. -/
theorem inTime_hour :
    (single ⟨3600000000000, by decide⟩ 0).StoresInTime ⟨0, by decide⟩
        ⟨3600000000000, by decide⟩ 1 ∧
      (single ⟨3600000000000, by decide⟩ 0).BlocksInTime [] ⟨0, by decide⟩ := by
  have both := inTime_iff (single ⟨3600000000000, by decide⟩ 0) ⟨0, by decide⟩
  refine ⟨(both.1 _ 1 (by decide)).mpr (by decide), (both.2 []).mpr fun entry first => ?_⟩
  obtain rfl := Option.some.inj first
  decide

/-- `sleep` for `nanoseconds::max()` has no deadline, and with a deadline in thirty
days `epoll_wait` blocks for ever. -/
theorem not_inTime_thirtyDays :
    ¬(empty : MachinePool Nat).StoresInTime ⟨1, by decide⟩ ⟨9223372036854775807, by decide⟩ 0 ∧
      ¬(single ⟨2592000000000000, by decide⟩ 0).BlocksInTime [] ⟨0, by decide⟩ := by
  rw [storesInTime_iff _ _ _ (by decide), blocksInTime_iff]
  refine ⟨by decide, fun inTime => ?_⟩
  have lower := (inTime ⟨2592000000000000, 0⟩ rfl).2
  exact absurd lower (by decide)

end MachinePool

/-- The reactor's `run` calls `epoll::run` with the wait time of the machine. -/
theorem Reactor.poll_toTimerPool
    {User Own Key Outside : Type} {s : Reactor User Own Key Outside}
    {pool : MachinePool TaskId} {now : Nanoseconds} {poll : MachinePoll TaskId}
    (timers : s.timers = pool.toTimerPool)
    (defined : pool.getDelay now = some poll) :
    (s.poll now.value).timers = poll.pool.toTimerPool ∧
      (s.poll now.value).pc = .calling
        (MachinePool.runWaitTime (s.tasks ++ poll.woken) poll.waitTime).value := by
  have exact := MachinePool.getDelay_toTimerPool defined
  have tasks : (s.polled now.value).tasks = s.tasks ++ poll.woken := by
    rw [polled, foldl_wake_tasks, timers, exact]
  rw [poll_eq, tasks, timers, exact]
  refine ⟨?_, ?_⟩
  · change (s.polled now.value).timers = _
    rw [polled, foldl_wake_timers, timers, exact]
  · rw [MachinePool.runWaitTime]
    split_ifs <;> rfl

end Cppio
