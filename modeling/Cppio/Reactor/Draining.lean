import Cppio.Library.RoundRobin
import Cppio.Reactor.Discipline
import Cppio.Reactor.Rounds

/-!
# The end of `process_tasks`

`process_tasks` goes on until `m_tasks` is empty, and a task that is still `kRun`
goes to the end of `m_tasks`.  So the call does not come to an end exactly if one
of its tasks stays `kRun` for ever in this call, be it itself or through the tasks
that it spawns; such a task keeps its worker from its timers and its events.
-/

namespace Cppio
namespace Reactor

variable {User Own Local Key Outside : Type} [DecidableEq Key]

omit [DecidableEq Key] in
/-- In every run of every program the tasks in the queue are different. -/
theorem Disciplined.distinct
    {s : Reactor User Own Key Outside}
    (disciplined : Disciplined s) :
    Distinct s where
  once := by
    rw [List.nodup_iff_count_le_one]
    intro task
    cases disciplined.standing task with
    | unborn _ _ _ count => exact count.trans_le (Nat.zero_le 1)
    | ready _ _ _ _ count => exact count.le
    | parked _ _ _ _ count => exact count.trans_le (Nat.zero_le 1)
    | done _ _ _ count => exact count.trans_le (Nat.zero_le 1)
  known task present := by
    have queued := List.count_pos_iff.mpr present
    cases disciplined.standing task with
    | unborn _ _ _ count => omega
    | ready born => exact born
    | parked born => exact born
    | done born => exact born

/-! ## A task that yields once and a task that yields for ever -/

/-- The call of `process_tasks` with the task in the queue. -/
def callWith {User : Type} (start : Start User) : List (Label User Nat Int) :=
  [.deed (.spawn start), .call, .test, .complete [], .proceed]

/-- A program with one coroutine, that yields for ever. -/
def yielding : Surroundings Unit Unit Empty Nat Int where
  program here := .yield here
  syscall _ clock := (⟨-1, .other⟩, [], clock)
  perform effect := nomatch effect
  epollCtl _ _ := none
  now clock := clock

end Reactor
end Cppio
