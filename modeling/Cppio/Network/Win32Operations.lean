import Cppio.Network.BaseSocket
import Cppio.Task.Trace
import Mathlib.Algebra.Order.Ring.Nat

/-!
# The Win32 socket operations and `kWait`

The coroutines of `tcp_socket`, `udp_socket` and `tcp_listener` on Win32, for
every outcome of their calls and of the completion packets.  A task that returns
from one of them must be marked `kRun`, or `one_step` does not resume the
coroutine that awaits.  All of them but `tcp_socket::write` are marked `kWait`
before the call that starts the operation, and stay marked when that call fails
at once.
-/

namespace Cppio

namespace Win32

/-! ## The operations -/

/-- `WSAGetLastError()`, as far as the operations tell its values apart. -/
inductive LastError
  | ioPending
  | connReset
  | other
  deriving DecidableEq

/-- What a call returns, and the error it leaves. -/
structure Answer where
  result : Int
  error : LastError
  deriving DecidableEq

/-- `network_error_code`, the codes that the operations return. -/
inductive ErrorCode
  | closed
  | systemError
  deriving DecidableEq

/-- The address of a buffer or of an endpoint. -/
abbrev Address := Nat

/-- The calls of the operations.  A size is the `len` of the `WSABUF`. -/
inductive Call
  | wsaSocket
  | bind (sock : SocketT)
  | connectEx (sock : SocketT) (endpoint : Address)
  /-- `setsockopt` with `SO_UPDATE_CONNECT_CONTEXT`. -/
  | updateConnectContext (sock : SocketT)
  | wsaRecv (sock : SocketT) (buffer : Address) (size : Nat)
  | wsaSend (sock : SocketT) (buffer : Address) (size : Nat)
  | wsaRecvFrom (sock : SocketT) (buffer : Address) (size : Nat)
  | wsaSendTo (sock : SocketT) (endpoint buffer : Address) (size : Nat)
  | acceptEx (sock out : SocketT)
  /-- `setsockopt` with `SO_UPDATE_ACCEPT_CONTEXT`. -/
  | updateAcceptContext (out sock : SocketT)

/-- What `iocp::run` leaves in `overlapped`. -/
structure Completion where
  success : Bool
  bytesTransferred : Nat
  deriving DecidableEq

inductive Effect
  | call (call : Call)
  /-- `WSAIoctl`, and whether it set `ConnectExPtr`. -/
  | connectExPtr (sock : SocketT)
  /-- The constructor of `basic_overlapped`. -/
  | overlapped
  /-- Reading `overlapped`. -/
  | completion

@[reducible] def Effect.Reply : Effect → Type
  | .call _ => Answer
  | .connectExPtr _ => Bool
  | .overlapped => Unit
  | .completion => Completion

/-- What an operation returns. -/
inductive Result
  | socket (sock : SocketT)
  | size (size : Nat)
  | error (code : ErrorCode)
  deriving DecidableEq

/-- The code of an operation.  The two loops are constructors. -/
inductive Code
  | call (winCall : Call) (next : Answer → Code)
  | connectExPtr (sock : SocketT) (next : Bool → Code)
  | overlapped (next : Code)
  | completion (next : Completion → Code)
  | wait (next : Code)
  | suspend (next : Code)
  | ret (value : Result)
  /-- The loop of `tcp_socket::write`. -/
  | tcpWrite (sock : SocketT) (buffer : Address) (size total : Nat)
  /-- The loop of `tcp_listener::accept`. -/
  | accept (sock out : SocketT)

/-- The size as `WSABUF::len` holds it, an unsigned number of 32 bits. -/
def wsaBufLen (size : Nat) : Nat := size % 2 ^ 32

namespace Code

/-- `SOCKET_ERROR`. -/
def socketError : Int := -1

/-- `TRUE`. -/
def winTrue : Int := 1

/-- `co_return code`. -/
def fail (code : ErrorCode) : Code := .ret (.error code)

/-- `tcp_socket::connect`. -/
def connect (endpoint : Address) : Code :=
  .call .wsaSocket fun created =>
    let out := created.result
    if out = socketInvalidHandle then fail .systemError
    else .call (.bind out) fun rc =>
      if rc.result ≠ 0 then fail .systemError
      else .connectExPtr out fun found =>
        if found = false then fail .systemError
        else .overlapped (.wait (.call (.connectEx out endpoint) fun answer =>
          if answer.result = winTrue ∨ answer.error = .ioPending then
            .suspend (.call (.updateConnectContext out) fun _ => .completion fun completion =>
              if completion.success then .ret (.socket out) else fail .systemError)
          else fail .systemError))

/-- The part that the operations with one call have in common: `wait()`, the call,
the suspension, and what they return after it. -/
def once (winCall : Call) (next : Completion → Code) : Code :=
  .overlapped (.wait (.call winCall fun answer =>
    if answer.result = socketError ∧ answer.error ≠ .ioPending then fail .closed
    else .suspend (.completion next)))

/-- `tcp_socket::read`. -/
def read (sock : SocketT) (buffer : Address) (size : Nat) : Code :=
  once (.wsaRecv sock buffer (wsaBufLen size)) fun completion =>
    if completion.success then .ret (.size completion.bytesTransferred) else .ret (.size 0)

/-- `udp_socket::read`. -/
def readFrom (sock : SocketT) (buffer : Address) (size : Nat) : Code :=
  once (.wsaRecvFrom sock buffer (wsaBufLen size)) fun completion =>
    if completion.success then .ret (.size completion.bytesTransferred) else .ret (.size 0)

/-- `udp_socket::write`. -/
def writeTo (sock : SocketT) (endpoint buffer : Address) (size : Nat) : Code :=
  once (.wsaSendTo sock endpoint buffer (wsaBufLen size)) fun completion =>
    if completion.success then .ret (.size completion.bytesTransferred) else fail .closed

/-- `tcp_socket::write`. -/
def write (sock : SocketT) (buffer : Address) (size : Nat) : Code :=
  .overlapped (.tcpWrite sock buffer size 0)

/-- The loop of `tcp_socket::write`, after its call; here `wait()` comes after it. -/
def sentSome (sock : SocketT) (buffer : Address) (size total : Nat) (answer : Answer) : Code :=
  if answer.result = socketError ∧ answer.error ≠ .ioPending then fail .closed
  else .wait (.suspend (.completion fun completion =>
    if completion.success then .tcpWrite sock buffer size (total + completion.bytesTransferred)
    else fail .closed))

/-- `tcp_listener::accept`. -/
def acceptOne (sock : SocketT) : Code :=
  .overlapped (.call .wsaSocket fun created =>
    let out := created.result
    if out = socketError then fail .systemError
    else .wait (.accept sock out))

/-- The loop of `tcp_listener::accept`, after its call. -/
def accepted (sock out : SocketT) (answer : Answer) : Code :=
  if answer.result = winTrue ∨ answer.error = .ioPending then
    .suspend (.completion fun completion =>
      if completion.success then
        .call (.updateAcceptContext out sock) fun _ => .ret (.socket out)
      else .accept sock out)
  else if answer.error ≠ .connReset then fail .systemError
  else .accept sock out

/-- What an operation does next. -/
def instr : Code → Instr Code Effect Result Effect.Reply
  | .call winCall next => .perform (.call winCall) next
  | .connectExPtr sock next => .perform (.connectExPtr sock) next
  | .overlapped next => .perform .overlapped fun _ => next
  | .completion next => .perform .completion next
  | .wait next => .wait next
  | .suspend next => .suspend next
  | .ret value => .ret value
  | .tcpWrite sock buffer size total =>
      if total < size then
        .perform (.call (.wsaSend sock (buffer + total) (wsaBufLen (size - total))))
          (sentSome sock buffer size total)
      else .ret (.size total)
  | .accept sock out => .perform (.call (.acceptEx sock out)) (accepted sock out)

theorem instr_eq_wait {code next : Code} (waits : code.instr = .wait next) :
    code = .wait next := by
  cases code with
  | wait next' =>
      cases waits
      rfl
  | tcpWrite sock buffer size total =>
      rw [instr] at waits
      split_ifs at waits
  | _ => cases waits

theorem instr_eq_suspend {code next : Code} (suspends : code.instr = .suspend next) :
    code = .suspend next := by
  cases code with
  | suspend next' =>
      cases suspends
      rfl
  | tcpWrite sock buffer size total =>
      rw [instr] at suspends
      split_ifs at suspends
  | _ => cases suspends

/-- No operation awaits another coroutine. -/
theorem instr_ne_await {code child : Code} {next : Result → Code} :
    code.instr ≠ .await child next := by
  intro awaits
  cases code with
  | tcpWrite sock buffer size total =>
      rw [instr] at awaits
      split_ifs at awaits
  | _ => cases awaits

end Code

/-- The six coroutines. -/
inductive Operation
  | connect (endpoint : Address)
  | tcpRead (sock : SocketT) (buffer : Address) (size : Nat)
  | tcpWrite (sock : SocketT) (buffer : Address) (size : Nat)
  | udpRead (sock : SocketT) (buffer : Address) (size : Nat)
  | udpWrite (sock : SocketT) (endpoint buffer : Address) (size : Nat)
  | accept (sock : SocketT)
  deriving DecidableEq

namespace Operation

def code : Operation → Code
  | .connect endpoint => Code.connect endpoint
  | .tcpRead sock buffer size => Code.read sock buffer size
  | .tcpWrite sock buffer size => Code.write sock buffer size
  | .udpRead sock buffer size => Code.readFrom sock buffer size
  | .udpWrite sock endpoint buffer size => Code.writeTo sock endpoint buffer size
  | .accept sock => Code.acceptOne sock

/-- The operation calls `wait()` before it starts anything. -/
def waitsFirst : Operation → Bool
  | .tcpWrite _ _ _ => false
  | _ => true

end Operation

/-! ## Scripts -/

/-- What happens on a run, with every answer and completion. -/
abbrev Script := List (Occurrence Effect.Reply)

/-- The runs of a coroutine that return. -/
abbrev Returns (code : Code) (script : Script) (value : Result) : Prop :=
  Runs Code.instr (fun _ outcome => outcome) code script (some value)

/-- `m_state` after a run.  A coroutine that is suspended is resumed in `kRun`:
from `kWait` after `wake()`, and from `kRun` by `process_tasks`. -/
def stateAfter : ScheduleType → Script → ScheduleType
  | state, [] => state
  | state, .performed _ _ :: script => stateAfter state script
  | _, .waited :: script => stateAfter .wait script
  | _, .suspended :: script => stateAfter .run script

/-- How a call that starts an operation can turn out. -/
inductive Start
  | started
  /-- `AcceptEx` finds that the client is gone, and is called again. -/
  | again
  | refused
  deriving DecidableEq

/-- How the answer of a call that starts an operation is to be read. -/
def Call.start : Call → Answer → Option Start
  | .connectEx _ _, answer =>
      if answer.result = Code.winTrue ∨ answer.error = .ioPending then some .started
      else some .refused
  | .acceptEx _ _, answer =>
      if answer.result = Code.winTrue ∨ answer.error = .ioPending then some .started
      else if answer.error ≠ .connReset then some .refused
      else some .again
  | .wsaRecv _ _ _, answer | .wsaSend _ _ _, answer | .wsaRecvFrom _ _ _, answer
  | .wsaSendTo _ _ _ _, answer =>
      if answer.result = Code.socketError ∧ answer.error ≠ .ioPending then some .refused
      else some .started
  | _, _ => none

def startOf : Occurrence Effect.Reply → Option Start
  | .performed (.call winCall) answer => winCall.start answer
  | _ => none

/-- A call fails at once before any call has started the operation. -/
def FailsAtOnce (script : Script) : Prop :=
  (script.filterMap startOf).find? (· ≠ .again) = some .refused

instance (script : Script) : Decidable (FailsAtOnce script) :=
  inferInstanceAs (Decidable (_ = _))

/-! ## Once the operation has started -/

/-- Whenever the code calls `wait()`, it suspends next. -/
def Safe : Code → Prop
  | .call _ next => ∀ answer, Safe (next answer)
  | .connectExPtr _ next => ∀ found, Safe (next found)
  | .overlapped next => Safe next
  | .completion next => ∀ completion, Safe (next completion)
  | .wait (.suspend next) => Safe next
  | .wait _ => False
  | .suspend next => Safe next
  | _ => True

theorem safe_ite
    {condition : Prop} [Decidable condition] {first second : Code}
    (positive : Safe first) (negative : Safe second) :
    Safe (if condition then first else second) := by
  split_ifs
  · exact positive
  · exact negative

theorem safe_sentSome (sock : SocketT) (buffer : Address) (size total : Nat) (answer : Answer) :
    Safe (Code.sentSome sock buffer size total answer) := by
  have completed : ∀ completion : Completion, Safe (if completion.success = true then
      .tcpWrite sock buffer size (total + completion.bytesTransferred)
      else Code.fail .closed) := fun _ => safe_ite trivial trivial
  exact safe_ite trivial completed

theorem safe_accepted (sock out : SocketT) (answer : Answer) :
    Safe (Code.accepted sock out answer) := by
  have completed : ∀ completion : Completion, Safe (if completion.success = true then
      .call (.updateAcceptContext out sock) fun _ => .ret (.socket out)
      else .accept sock out) := fun _ => safe_ite (fun _ => trivial) trivial
  exact safe_ite completed (safe_ite trivial trivial)

theorem Safe.perform
    {code : Code} {effect : Effect} {next : effect.Reply → Code}
    (safe : Safe code)
    (performs : code.instr = .perform effect next)
    (outcome : effect.Reply) :
    Safe (next outcome) := by
  cases code with
  | call winCall next' =>
      cases performs
      exact safe outcome
  | connectExPtr sock next' =>
      cases performs
      exact safe outcome
  | overlapped next' =>
      cases performs
      exact safe
  | completion next' =>
      cases performs
      exact safe outcome
  | wait next' => cases performs
  | suspend next' => cases performs
  | ret value => cases performs
  | tcpWrite sock buffer size total =>
      rw [Code.instr] at performs
      split_ifs at performs
      cases performs
      exact safe_sentSome sock buffer size total outcome
  | accept sock out =>
      cases performs
      exact safe_accepted sock out outcome

theorem Safe.wait
    {code next : Code}
    (safe : Safe code)
    (waits : code.instr = .wait next) :
    ∃ after, next = .suspend after ∧ Safe after := by
  obtain rfl := Code.instr_eq_wait waits
  cases next with
  | suspend after => exact ⟨after, rfl, safe⟩
  | _ => exact absurd safe (by simp [Safe])

theorem Safe.suspend
    {code next : Code}
    (safe : Safe code)
    (suspends : code.instr = .suspend next) :
    Safe next := by
  obtain rfl := Code.instr_eq_suspend suspends
  exact safe

/-- From `kRun`, such code returns in `kRun`. -/
theorem Safe.stateAfter
    {code : Code} {script : Script} {last : Option Result}
    (run : Runs Code.instr (fun _ outcome => outcome) code script last)
    (safe : Safe code) :
    Win32.stateAfter .run script = .run := by
  induction run with
  | ret _ => rfl
  | rest _ => rfl
  | perform performs _ inductionHypothesis =>
      exact inductionHypothesis (safe.perform performs _)
  | wait waits run inductionHypothesis =>
      obtain ⟨after, rfl, safeAfter⟩ := safe.wait waits
      obtain ⟨rest, rfl, -⟩ := run.of_suspend rfl
      exact inductionHypothesis safeAfter
  | resume suspends _ inductionHypothesis =>
      exact inductionHypothesis (safe.suspend suspends)

/-! ## Until the operation has started -/

section

variable {occurrence : Occurrence Effect.Reply} {script : Script}

theorem failsAtOnce_quiet (quiet : startOf occurrence = none) :
    FailsAtOnce (occurrence :: script) ↔ FailsAtOnce script := by
  simp [FailsAtOnce, quiet]

theorem failsAtOnce_again (again : startOf occurrence = some .again) :
    FailsAtOnce (occurrence :: script) ↔ FailsAtOnce script := by
  simp [FailsAtOnce, again]

theorem failsAtOnce_started (started : startOf occurrence = some .started) :
    ¬FailsAtOnce (occurrence :: script) := by
  simp [FailsAtOnce, started]

theorem failsAtOnce_refused (refused : startOf occurrence = some .refused) :
    FailsAtOnce (occurrence :: script) := by
  simp [FailsAtOnce, refused]

end

/-- Code that has not started its operation: it returns in `kRun`, unless a call
that is to start the operation fails at once. -/
def Decides (state : ScheduleType) (code : Code) : Prop :=
  ∀ script value, Returns code script value →
    (stateAfter state script = .run ↔ ¬FailsAtOnce script)

theorem decides_ret (value : Result) : Decides .run (.ret value) := by
  intro script value' returns
  obtain ⟨rfl, -⟩ := returns.of_ret rfl
  exact iff_of_true rfl (by decide)

/-- An effect that cannot start the operation. -/
theorem Decides.perform
    {state : ScheduleType} {code : Code} {effect : Effect} {next : effect.Reply → Code}
    (decides : ∀ outcome, Decides state (next outcome))
    (performs : code.instr = .perform effect next)
    (quiet : ∀ outcome, startOf (.performed effect outcome) = none) :
    Decides state code := by
  intro script value returns
  obtain ⟨outcome, rest, rfl, afterwards⟩ := returns.of_perform performs
  rw [failsAtOnce_quiet (quiet outcome)]
  exact decides outcome rest value afterwards

theorem Decides.wait
    {state : ScheduleType} {next : Code}
    (decides : Decides .wait next) :
    Decides state (.wait next) := by
  intro script value returns
  obtain ⟨rest, rfl, afterwards⟩ := returns.of_wait rfl
  rw [failsAtOnce_quiet rfl]
  exact decides rest value afterwards

/-- The operation has started, and the coroutine suspends. -/
theorem stateAfter_started
    {next : Code} {script : Script} {last : Option Result} {state : ScheduleType}
    (run : Runs Code.instr (fun _ outcome => outcome) (.suspend next) script last)
    (safe : Safe next) :
    stateAfter state script = .run := by
  obtain ⟨rest, rfl, ⟨rfl, -⟩ | afterwards⟩ := run.of_suspend rfl
  · rfl
  · exact safe.stateAfter afterwards

section

variable {winCall : Call} {answer : Answer} {next : Code} {script : Script} {value : Result}

/-- The call in `kWait` starts the operation. -/
theorem decides_started
    (started : winCall.start answer = some .started)
    (afterwards : Returns (.suspend next) script value)
    (safe : Safe next) :
    stateAfter .wait (.performed (.call winCall) answer :: script) = .run ↔
      ¬FailsAtOnce (.performed (.call winCall) answer :: script) := by
  have running : stateAfter .wait script = .run := stateAfter_started afterwards safe
  exact iff_of_true running (failsAtOnce_started started)

/-- The call in `kWait` fails at once, and the coroutine returns as it is. -/
theorem decides_refused
    {error : ErrorCode}
    (refused : winCall.start answer = some .refused)
    (afterwards : Returns (Code.fail error) script value) :
    stateAfter .wait (.performed (.call winCall) answer :: script) = .run ↔
      ¬FailsAtOnce (.performed (.call winCall) answer :: script) := by
  obtain ⟨rfl, -⟩ := afterwards.of_ret rfl
  exact iff_of_false nofun (not_not_intro (failsAtOnce_refused refused))

end

/-- The call that starts the operation, in `kWait`. -/
theorem decides_call
    {winCall : Call} {next : Answer → Code}
    (answered : ∀ answer,
      (winCall.start answer = some .started ∧ ∃ after, next answer = .suspend after ∧ Safe after) ∨
      (winCall.start answer = some .refused ∧ ∃ code, next answer = Code.fail code)) :
    Decides .wait (.call winCall next) := by
  intro script value returns
  obtain ⟨answer, rest, rfl, afterwards⟩ := returns.of_perform rfl
  obtain ⟨started, after, suspends, safe⟩ | ⟨refused, code, fails⟩ := answered answer
  · rw [suspends] at afterwards
    exact decides_started started afterwards safe
  · rw [fails] at afterwards
    exact decides_refused refused afterwards

theorem decides_once
    {winCall : Call} {next : Completion → Code}
    (starts : ∀ answer, winCall.start answer =
      if answer.result = Code.socketError ∧ answer.error ≠ .ioPending then some .refused
      else some .started)
    (safe : ∀ completion, Safe (next completion)) :
    Decides .run (Code.once winCall next) := by
  refine Decides.perform (fun _ => Decides.wait (decides_call fun answer => ?_)) rfl fun _ => rfl
  rw [starts]
  split_ifs with refused
  · exact Or.inr ⟨rfl, .closed, rfl⟩
  · exact Or.inl ⟨rfl, _, rfl, safe⟩

theorem decides_connect (endpoint : Address) : Decides .run (Code.connect endpoint) := by
  refine Decides.perform (fun created => ?_) rfl fun _ => rfl
  dsimp only
  split_ifs
  · exact decides_ret _
  refine Decides.perform (fun rc => ?_) rfl fun _ => rfl
  split_ifs
  · exact decides_ret _
  refine Decides.perform (fun found => ?_) rfl fun _ => rfl
  split_ifs
  · exact decides_ret _
  refine Decides.perform (fun _ => Decides.wait (decides_call fun answer => ?_)) rfl fun _ => rfl
  rw [Call.start]
  split_ifs
  · exact Or.inl ⟨rfl, _, rfl, fun _ _ => safe_ite trivial trivial⟩
  · exact Or.inr ⟨rfl, .systemError, rfl⟩

/-- The loop of `tcp_listener::accept`, until `AcceptEx` has started. -/
theorem decides_accept (sock out : SocketT) : Decides .wait (.accept sock out) := by
  intro script value returns
  induction script with
  | nil => cases returns with | ret returns => cases returns
  | cons occurrence script inductionHypothesis =>
      obtain ⟨answer, rest, same, afterwards⟩ := returns.of_perform rfl
      obtain ⟨rfl, rfl⟩ := List.cons.inj same
      rw [Code.accepted] at afterwards
      split_ifs at afterwards with started other
      · refine decides_started ?_ afterwards fun _ => safe_ite (fun _ => trivial) trivial
        simp [Call.start, started]
      · refine decides_refused ?_ afterwards
        simp [Call.start, started, other]
      · rw [failsAtOnce_again (by simp [startOf, Call.start, started, other])]
        exact inductionHypothesis afterwards

theorem decides_acceptOne (sock : SocketT) : Decides .run (Code.acceptOne sock) := by
  refine Decides.perform (fun _ => ?_) rfl fun _ => rfl
  refine Decides.perform (fun created => ?_) rfl fun _ => rfl
  dsimp only
  split_ifs
  · exact decides_ret _
  · exact Decides.wait (decides_accept sock created.result)

/-- The operations that call `wait()` before they start anything. -/
theorem Operation.decides
    (operation : Operation)
    (waits : operation.waitsFirst = true) :
    Decides .run operation.code := by
  cases operation with
  | connect endpoint => exact decides_connect endpoint
  | tcpRead sock buffer size =>
      exact decides_once (fun _ => rfl) fun _ => safe_ite trivial trivial
  | tcpWrite sock buffer size => cases waits
  | udpRead sock buffer size =>
      exact decides_once (fun _ => rfl) fun _ => safe_ite trivial trivial
  | udpWrite sock endpoint buffer size =>
      exact decides_once (fun _ => rfl) fun _ => safe_ite trivial trivial
  | accept sock => exact decides_acceptOne sock

/-- A task is not `kDone` before its own coroutine has returned. -/
theorem stateAfter_ne_done
    (script : Script) {state : ScheduleType} (unfinished : state ≠ .done) :
    stateAfter state script ≠ .done := by
  induction script generalizing state with
  | nil => exact unfinished
  | cons occurrence script inductionHypothesis =>
      cases occurrence with
      | performed effect outcome => exact inductionHypothesis unfinished
      | waited => exact inductionHypothesis nofun
      | suspended => exact inductionHypothesis nofun

/-- An operation returns in `kRun`, and `one_step` then resumes the coroutine that
awaits it, unless it calls `wait()` first and then fails at once; there `one_step`
returns `kWait`. -/
theorem Operation.returnsRunning_iff
    (operation : Operation) {script : Script} {value : Result}
    (returns : Returns operation.code script value) :
    (stateAfter .run script = .run ↔
      ¬(operation.waitsFirst = true ∧ FailsAtOnce script)) ∧
    ∀ {Code Effect Value World : Type} {Reply : Effect → Type}
      (system : System Code Effect Value World Reply) {world : World}
      {frames : Frames Code Value} {curr outer : Handle} {awaiting : Frame Code Value},
      system.state world = stateAfter .run script →
      frames.ReturnedTo curr outer awaiting →
      ∀ fuel,
        let frames' := frames.put outer (some awaiting.resumable)
        system.afterResume (system.unwind (fuel + 1)) curr frames world =
          if operation.waitsFirst = true ∧ FailsAtOnce script then .ok (.wait, frames', world)
          else (system.resume fuel outer awaiting.resumable frames' world).bind fun left =>
            system.afterResume (system.unwind fuel) outer left.1 left.2 := by
  have decides : stateAfter .run script = .run ↔
      ¬(operation.waitsFirst = true ∧ FailsAtOnce script) := by
    by_cases waits : operation.waitsFirst = true
    · simpa [waits] using operation.decides waits script value returns
    · cases operation with
      | tcpWrite sock buffer size =>
          exact iff_of_true (Safe.stateAfter returns trivial) (fun fails => waits fails.1)
      | _ => exact absurd rfl waits
  refine ⟨decides, fun system world frames curr outer awaiting state returnedTo fuel => ?_⟩
  rw [system.afterResume_returned returnedTo fuel world, state]
  refine if_congr ?_ rfl rfl
  rw [← not_iff_not, ← decides]
  have unfinished := stateAfter_ne_done script (show ScheduleType.run ≠ .done from nofun)
  constructor
  · intro awake
    cases same : stateAfter .run script with
    | done => exact absurd same unfinished
    | run => rfl
    | wait => exact absurd same awake
  · intro running waiting
    cases running.symm.trans waiting

/-- A read that completes with five bytes. -/
def completedRead : Script :=
  [.performed .overlapped (), .waited, .performed (.call (.wsaRecv 3 4096 16)) ⟨0, .other⟩,
    .suspended, .performed .completion ⟨true, 5⟩]

theorem completedRead_returns : Returns (Code.read 3 4096 16) completedRead (.size 5) :=
  .perform rfl (.wait rfl (.perform rfl (.resume rfl (.perform rfl (.ret rfl)))))

theorem Operation.returnsRunning_completedRead :
    stateAfter .run completedRead = .run :=
  ((Operation.tcpRead 3 4096 16).returnsRunning_iff completedRead_returns).1.2 (by decide)

/-- A read that fails at once. -/
def resetRead : Script :=
  [.performed .overlapped (), .waited,
    .performed (.call (.wsaRecv 3 4096 16)) ⟨Code.socketError, .connReset⟩]

theorem Operation.not_returnsRunning_resetRead :
    ¬∀ (operation : Operation) (script : Script) (value : Result),
      Returns operation.code script value → stateAfter .run script = .run := by
  intro returnsRunning
  have returns : Returns (Code.read 3 4096 16) resetRead (.error .closed) :=
    .perform rfl (.wait rfl (.perform rfl (.ret rfl)))
  cases returnsRunning (.tcpRead 3 4096 16) resetRead _ returns

end Win32

end Cppio
