import Mathlib.Data.List.Basic

/-!
# How an operation parks its task

Before it suspends, an operation sets its task to `kWait` and hands it to epoll
or to the timer pool.  The socket operations that try the system call first
call `wait()` before they register; `connect` and `accept` register first.
-/

namespace Cppio

/-- `basic_task::ScheduleType`. -/
inductive ScheduleType
  | done
  | run
  | wait
  deriving DecidableEq

/-- `EPOLLIN` or `EPOLLOUT`; both come with `EPOLLERR`, `EPOLLHUP` and
`EPOLLONESHOT`. -/
inductive Interest
  | read
  | write
  deriving DecidableEq

/-- What an operation does on its way to `co_await std::suspend_always{}`. -/
inductive ParkStep (Key : Type)
  | wait
  | register (interest : Interest) (key : Key)
  | startTimer (delay : Int)
  deriving DecidableEq

namespace ParkStep

variable {Key : Type}

/-- The step hands the task to epoll or to the timer pool. -/
def isArm : ParkStep Key → Bool
  | .wait => false
  | .register _ _ => true
  | .startTimer _ => true

@[simp] theorem isArm_wait : (.wait : ParkStep Key).isArm = false := rfl

end ParkStep

/-- An operation that suspends, with the descriptor it registers. -/
inductive Operation (Key : Type)
  | connect (sock : Key)
  | accept (sock : Key)
  | tcpRead (sock : Key)
  | tcpWrite (sock : Key)
  | udpRead (sock : Key)
  | udpWrite (sock : Key)
  | sleep (delay : Int)
  deriving DecidableEq

namespace Operation

variable {Key : Type}

/-- The steps of an operation, in the order of its code. -/
def parkSteps : Operation Key → List (ParkStep Key)
  | .connect sock => [.register .write sock, .wait]
  | .accept sock => [.register .read sock, .wait]
  | .tcpRead sock => [.wait, .register .read sock]
  | .tcpWrite sock => [.wait, .register .write sock]
  | .udpRead sock => [.wait, .register .read sock]
  | .udpWrite sock => [.wait, .register .write sock]
  | .sleep delay => [.wait, .startTimer delay]

/-- Every operation calls `wait()` once and hands its task over once. -/
theorem parkSteps_once (operation : Operation Key) :
    ∃ arm, arm.isArm = true ∧
      (operation.parkSteps = [.wait, arm] ∨ operation.parkSteps = [arm, .wait]) := by
  cases operation with
  | connect sock => exact ⟨.register .write sock, rfl, Or.inr rfl⟩
  | accept sock => exact ⟨.register .read sock, rfl, Or.inr rfl⟩
  | tcpRead sock => exact ⟨.register .read sock, rfl, Or.inl rfl⟩
  | tcpWrite sock => exact ⟨.register .write sock, rfl, Or.inl rfl⟩
  | udpRead sock => exact ⟨.register .read sock, rfl, Or.inl rfl⟩
  | udpWrite sock => exact ⟨.register .write sock, rfl, Or.inl rfl⟩
  | sleep delay => exact ⟨.startTimer delay, rfl, Or.inl rfl⟩

theorem count_wait [DecidableEq Key] (operation : Operation Key) :
    operation.parkSteps.count .wait = 1 := by
  obtain ⟨arm, arms, steps | steps⟩ := operation.parkSteps_once
  · cases arm with
    | wait => cases arms
    | _ => rw [steps]; rfl
  · cases arm with
    | wait => cases arms
    | _ => rw [steps]; rfl

theorem countP_isArm (operation : Operation Key) :
    operation.parkSteps.countP ParkStep.isArm = 1 := by
  obtain ⟨arm, arms, steps | steps⟩ := operation.parkSteps_once
  · simp [steps, arms]
  · simp [steps, arms]

theorem arms (operation : Operation Key) : ∃ step ∈ operation.parkSteps, step.isArm = true :=
  List.countP_pos_iff.mp (operation.countP_isArm ▸ Nat.one_pos)

end Operation

end Cppio
