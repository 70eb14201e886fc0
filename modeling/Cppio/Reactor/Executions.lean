import Cppio.Network.WakeSource
import Cppio.Task.Execution

/-!
# The executions of the operations

What happens on the executions of the coroutines of the library.  On the way to
suspension a coroutine makes no system call and does not look at its event.
-/

namespace Cppio

variable {User Own Local : Type}

/-- The executions of a coroutine of the library; with `partly` also their first parts. -/
abbrev Code.Advances
    (partly : Prop)
    (program : User → UserInstr User Own Local)
    (nexts : List (Result Own → Code User Own))
    (code : Code User Own)
    (events : List (Occurs User Own Local))
    (last : Option (Result Own)) : Prop :=
  Execution partly (Code.instr program) Effect.reply nexts code events last

/-- The executions of a coroutine of the library. -/
abbrev Code.Executes
    (program : User → UserInstr User Own Local)
    (nexts : List (Result Own → Code User Own))
    (code : Code User Own)
    (events : List (Occurs User Own Local))
    (last : Option (Result Own)) : Prop :=
  code.Advances False program nexts events last

namespace Occurrence

/-- The kernel sends and receives no more than it is asked for. -/
def Legal : Occurs User Own Local → Prop
  | .performed (.syscall (.send _ _ size)) answer => answer.result ≤ size
  | .performed (.syscall (.recv _ _ size)) answer => answer.result ≤ size
  | _ => True

/-- Neither a system call nor a look at the event. -/
def Quiet : Occurs User Own Local → Prop
  | .performed (.syscall _) _ => False
  | .performed .success _ => False
  | _ => True

end Occurrence

theorem Answer.failed_neg {answer : Answer} (failed : answer.failed = true) :
    answer.result < 0 := by
  simp only [Answer.failed, Bool.and_eq_true, decide_eq_true_eq] at failed
  exact failed.1.1

namespace Code

variable {program : User → UserInstr User Own Local}
variable {steps : List (ParkStep SocketT)} {next : Code User Own}

theorem park_performs
    {effect : Effect User Local} {after : effect.Reply Own → Code User Own}
    (performs : (Code.park steps next).instr program = .perform effect after)
    (outcome : effect.Outcome Own) :
    Occurrence.Quiet (.performed effect outcome) ∧
      ∃ rest, after (effect.reply outcome) = .park rest next := by
  obtain ⟨-, rest, -, -, -, arms, continues⟩ := parkInstr_eq_perform performs
  refine ⟨?_, rest, continues _⟩
  cases effect with
  | register interest sock => trivial
  | startTimer delay => trivial
  | _ => cases arms

end Code

end Cppio
