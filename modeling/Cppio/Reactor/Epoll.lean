import Cppio.Task.Parking
import Mathlib.Data.List.Count
import Mathlib.Data.List.Nodup

/-!
# One-shot registrations

What `epoll` holds armed.  A descriptor with its open file description has at
most one registration: `EPOLL_CTL_MOD` replaces the one it has.  Delivering an
event disarms its registration.
-/

namespace Cppio

/-- Tasks, numbered in the order of their `spawn`. -/
abbrev TaskId := Nat

/-- A registration with `EPOLLONESHOT`; `task` is that of its `basic_overlapped`. -/
structure Registration (Key : Type) where
  key : Key
  interest : Interest
  task : TaskId
  deriving DecidableEq

/-- The armed registrations of an `epoll` object. -/
structure Epoll (Key : Type) where
  armed : List (Registration Key)
  unique : (armed.map Registration.key).Nodup

namespace Epoll

variable {Key : Type} [DecidableEq Key]

omit [DecidableEq Key] in
/-- No registration occurs twice. -/
theorem nodup (epoll : Epoll Key) : epoll.armed.Nodup :=
  List.Nodup.of_map _ epoll.unique

def empty : Epoll Key where
  armed := []
  unique := List.nodup_nil

/-- The registration of a closed descriptor is gone. -/
def forget (epoll : Epoll Key) (key : Key) : Epoll Key where
  armed := epoll.armed.filter fun registration => registration.key ≠ key
  unique := epoll.unique.sublist ((List.filter_sublist).map _)

/-- `add_for_read` and `add_for_write`, when `epoll_ctl` succeeds.  The second has
no `return` after a successful `EPOLL_CTL_MOD`; no caller uses its result. -/
def add (epoll : Epoll Key) (registration : Registration Key) : Epoll Key where
  armed := registration :: (epoll.forget registration.key).armed
  unique := by
    rw [List.map_cons, List.nodup_cons]
    refine ⟨?_, (epoll.forget registration.key).unique⟩
    simp [forget]

/-- The events that one `epoll_wait` may report, into an array of ten. -/
def CanReport (epoll : Epoll Key) (events : List (Registration Key)) : Prop :=
  events.Nodup ∧ events ⊆ epoll.armed ∧ events.length ≤ 10

instance (epoll : Epoll Key) (events : List (Registration Key)) :
    Decidable (epoll.CanReport events) :=
  inferInstanceAs (Decidable (_ ∧ _ ∧ _))

/-- Reported registrations are disarmed. -/
def disarm (epoll : Epoll Key) (events : List (Registration Key)) : Epoll Key where
  armed := epoll.armed.filter fun registration => registration ∉ events
  unique := epoll.unique.sublist ((List.filter_sublist).map _)

/-- How many registrations would wake the task. -/
def pending (epoll : Epoll Key) (task : TaskId) : Nat :=
  epoll.armed.countP fun registration => registration.task = task

theorem pending_forget_le (epoll : Epoll Key) (key : Key) (task : TaskId) :
    (epoll.forget key).pending task ≤ epoll.pending task :=
  List.Sublist.countP_le List.filter_sublist

/-- Without an entry of the descriptor there is nothing to forget. -/
theorem pending_forget
    {epoll : Epoll Key} {key : Key}
    (absent : ∀ registration ∈ epoll.armed, registration.key ≠ key)
    (task : TaskId) :
    (epoll.forget key).pending task = epoll.pending task := by
  have kept : (epoll.forget key).armed = epoll.armed :=
    List.filter_eq_self.mpr fun registration present => decide_eq_true (absent _ present)
  rw [pending, kept, pending]

/-- A registration that displaces no other. -/
theorem pending_add
    {epoll : Epoll Key} {registration : Registration Key}
    (fresh : ∀ armed ∈ epoll.armed, armed.key ≠ registration.key)
    (task : TaskId) :
    (epoll.add registration).pending task =
      epoll.pending task + if registration.task = task then 1 else 0 := by
  have kept := pending_forget fresh task
  rw [pending] at kept
  rw [pending, add, List.countP_cons, kept]
  simp only [decide_eq_true_eq]

theorem pending_add_le (epoll : Epoll Key) (registration : Registration Key) (task : TaskId) :
    (epoll.add registration).pending task ≤
      epoll.pending task + if registration.task = task then 1 else 0 := by
  have forgotten := epoll.pending_forget_le registration.key task
  unfold pending at forgotten ⊢
  simp only [add, List.countP_cons, decide_eq_true_eq]
  omega

/-- A report moves registrations from the armed ones to the events. -/
theorem pending_disarm
    {epoll : Epoll Key} {events : List (Registration Key)}
    (possible : epoll.CanReport events)
    (task : TaskId) :
    (events.map Registration.task).count task + (epoll.disarm events).pending task =
      epoll.pending task := by
  obtain ⟨nodup, inside, -⟩ := possible
  have reported : (epoll.armed.filter fun registration => registration ∈ events).Perm events := by
    apply (List.perm_ext_iff_of_nodup (epoll.nodup.filter _) nodup).mpr
    intro registration
    simpa using fun present => inside present
  have split := List.countP_eq_countP_filter_add epoll.armed
    (fun registration => decide (registration.task = task))
    (fun registration => decide (registration ∈ events))
  rw [reported.countP_eq] at split
  have left : (epoll.disarm events).pending task =
      (epoll.armed.filter fun registration => !decide (registration ∈ events)).countP
        fun registration => decide (registration.task = task) := by
    simp [pending, disarm]
  rw [left, pending, split, List.count_eq_countP, List.countP_map]
  rfl

end Epoll

end Cppio
