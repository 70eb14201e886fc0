import Cppio.Network.SocketOwnership
import Cppio.Reactor.Operations
import Cppio.Task.Trace

/-!
# Which descriptors connection setup leaks

`tcp_socket::connect`, `tcp_listener::create` and `udp_socket::bind`, for every
outcome of the calls they make.  Each closes its descriptor on every failure
until the descriptor is set up.  The failures after that are a connection that
is refused, at once or later, and an address that cannot be bound; there the
functions return an error and leave the descriptor open.
-/

namespace Cppio

/-! ## `tcp_listener::create` and `udp_socket::bind` -/

/-- The system calls of the functions that set up a socket. -/
inductive SetupCall
  | posix (call : Syscall)
  /-- `socket(local_endpoint.type(), SOCK_DGRAM, IPPROTO_UDP)`. -/
  | datagramSocket (endpoint : Address)
  /-- `setsockopt(sock, SOL_SOCKET, SO_REUSEADDR, &on, sizeof(on))`. -/
  | setReuseAddr (sock : SocketT)
  /-- `setsockopt(sock, IPPROTO_TCP, TCP_DEFER_ACCEPT, &on, sizeof(on))`. -/
  | setDeferAccept (sock : SocketT)
  | bind (sock : SocketT) (endpoint : Address)
  /-- `listen(sock, 100)`. -/
  | listen (sock : SocketT)

/-- The code of a function that sets up a socket. -/
inductive SetupCode (Own : Type)
  | call (setupCall : SetupCall) (next : Answer → SetupCode Own)
  | ret (value : Result Own)

namespace SetupCode

variable {Own : Type}

open Code (socketError oNonblock)

/-- What such a function does next. -/
def instr : SetupCode Own →
    Instr (SetupCode Own) SetupCall (Result Own) fun _ => Answer
  | .call setupCall next => .perform setupCall next
  | .ret value => .ret value

/-- `return code`. -/
def fail (code : NetworkErrorCode) : SetupCode Own := .ret (.error code)

/-- `close(sock)` before `return network_error_code::SystemError`. -/
def closeAndFail (sock : SocketT) : SetupCode Own :=
  .call (.posix (.close sock)) fun _ => fail .systemError

/-- The constructor of a socket object, which is returned. -/
def returnSocket (sock : SocketT) : SetupCode Own :=
  .call (.posix (.dup sock)) fun outSocket => .ret (.socket ⟨sock, outSocket.result⟩)

/-- The part that `tcp_listener::create` and `udp_socket::bind` have in common:
the descriptor is not shared and does not block. -/
def setFlags (sock : SocketT) (next : SetupCode Own) : SetupCode Own :=
  .call (.posix (.setFd sock)) fun set =>
    if set.result = socketError then closeAndFail sock
    else .call (.posix (.getFl sock)) fun flags =>
      if flags.result = socketError then closeAndFail sock
      else .call (.posix (.setFl sock (flags.result.toNat ||| oNonblock))) fun set =>
        if set.result = socketError then closeAndFail sock
        else next

/-- `tcp_listener::create`. -/
def create (localEndpoint : Address) : SetupCode Own :=
  .call (.posix (.socket localEndpoint)) fun created =>
    let sock := created.result
    if sock = socketError then fail .systemError
    else .call (.setReuseAddr sock) fun set =>
      if set.result = socketError then closeAndFail sock
      else .call (.setDeferAccept sock) fun set =>
        if set.result = socketError then closeAndFail sock
        else setFlags sock (.call (.bind sock localEndpoint) fun bound =>
          if bound.result = socketError then fail .systemError
          else .call (.listen sock) fun _ => returnSocket sock)

/-- `udp_socket::bind`. -/
def bind (localEndpoint : Address) : SetupCode Own :=
  .call (.datagramSocket localEndpoint) fun created =>
    let sock := created.result
    if sock = socketError then fail .systemError
    else .call (.setReuseAddr sock) fun set =>
      if set.result = socketError then closeAndFail sock
      else setFlags sock (.call (.bind sock localEndpoint) fun bound =>
        if bound.result ≠ 0 then fail .closed
        else returnSocket sock)

end SetupCode

/-! ## Accounts of descriptors -/

/-- What an operation owes: after an error every descriptor that was opened has
been closed, once; after a success the returned object, and nothing else, will
close them. -/
def Settled {Own : Type} (opened closed : List SocketT) : Result Own → Prop
  | .error _ => closed.Perm opened
  | .socket sock => sock.closing.Perm opened ∧ closed = []
  | _ => False

/-- The descriptor that `socket` or `dup` returns. -/
def Answer.opened (answer : Answer) : List SocketT :=
  if answer.result = socketInvalidHandle then [] else [answer.result]

theorem Answer.opened_of_error
    {answer : Answer}
    (error : answer.result = Code.socketError) :
    answer.opened = [] := if_pos error

theorem Answer.opened_of_valid
    {answer : Answer}
    (valid : answer.result ≠ Code.socketError) :
    answer.opened = [answer.result] := if_neg valid

/-- The descriptors that effects open and close, and the failures that come after
the descriptor is set up. -/
structure Accounting {Effect : Type} (Outcome : Effect → Type) where
  opened : ∀ effect, Outcome effect → List SocketT
  closed : Effect → List SocketT
  late : ∀ effect, Outcome effect → Bool

namespace Accounting

variable {Code Effect Own : Type} {Reply Outcome : Effect → Type}

section Occurrences

variable (account : Accounting Outcome)

def openedBy : Occurrence Outcome → List SocketT
  | .performed effect outcome => account.opened effect outcome
  | _ => []

def closedBy : Occurrence Outcome → List SocketT
  | .performed effect _ => account.closed effect
  | _ => []

def lateAt : Occurrence Outcome → Bool
  | .performed effect outcome => account.late effect outcome
  | _ => false

/-- The descriptors opened and closed on a run are settled by its result. -/
def SettledOn (events : List (Occurrence Outcome)) (value : Result Own) : Prop :=
  Settled (events.flatMap account.openedBy) (events.flatMap account.closedBy) value

/-- Nothing fails on the run after the descriptor is set up. -/
def NoneLate (events : List (Occurrence Outcome)) : Prop :=
  ∀ occurrence ∈ events, account.lateAt occurrence = false

instance (events : List (Occurrence Outcome)) : Decidable (account.NoneLate events) :=
  inferInstanceAs (Decidable (∀ occurrence ∈ events, account.lateAt occurrence = false))

end Occurrences

variable (account : Accounting Outcome)
variable (body : Code → Instr Code Effect (Result Own) Reply)
variable (reply : ∀ effect, Outcome effect → Reply effect)

/-- From here, with these descriptors opened and closed before, runs are settled
exactly when nothing fails late. -/
def Settles (opened closed : List SocketT) (code : Code) : Prop :=
  ∀ events value, Runs body reply code events (some value) →
    (Settled (opened ++ events.flatMap account.openedBy)
      (closed ++ events.flatMap account.closedBy) value ↔ account.NoneLate events)

variable {account body reply} {opened closed : List SocketT} {code : Code}

theorem settles_ret
    {value : Result Own}
    (returns : body code = .ret value)
    (settled : Settled opened closed value) :
    account.Settles body reply opened closed code := by
  intro events value' run
  obtain ⟨rfl, isValue⟩ := run.of_ret returns
  obtain rfl := Option.some.inj isValue
  simpa [NoneLate] using settled

/-- An effect, with what follows its outcomes on time. -/
theorem settles_perform
    {effect : Effect} {next : Reply effect → Code}
    (performs : body code = .perform effect next)
    (onTime : ∀ outcome, account.late effect outcome = false →
      account.Settles body reply (opened ++ account.opened effect outcome)
        (closed ++ account.closed effect) (next (reply effect outcome)))
    (late : ∀ outcome, account.late effect outcome = true →
      ∃ value, body (next (reply effect outcome)) = .ret value ∧
        ¬Settled (opened ++ account.opened effect outcome) (closed ++ account.closed effect)
          value) :
    account.Settles body reply opened closed code := by
  intro events value run
  obtain ⟨outcome, rest, rfl, afterwards⟩ := run.of_perform performs
  rw [List.flatMap_cons, List.flatMap_cons, ← List.append_assoc, ← List.append_assoc]
  cases isLate : account.late effect outcome with
  | false =>
      have later := onTime outcome isLate rest value afterwards
      refine later.trans ⟨fun none occurrence present => ?_, fun none occurrence present => ?_⟩
      · rcases List.mem_cons.mp present with rfl | inRest
        · exact isLate
        · exact none occurrence inRest
      · exact none occurrence (List.mem_cons_of_mem _ present)
  | true =>
      obtain ⟨failed, returns, unsettled⟩ := late outcome isLate
      obtain ⟨rfl, isValue⟩ := afterwards.of_ret returns
      obtain rfl := Option.some.inj isValue
      apply iff_of_false (by simpa [openedBy, closedBy] using unsettled)
      intro none
      have onTime : account.late effect outcome = false := none _ List.mem_cons_self
      rw [isLate] at onTime
      cases onTime

/-- An effect that neither opens nor closes a descriptor and never fails late. -/
theorem settles_quiet
    {effect : Effect} {next : Reply effect → Code}
    (performs : body code = .perform effect next)
    (opensNone : ∀ outcome, account.opened effect outcome = [])
    (closesNone : account.closed effect = [])
    (neverLate : ∀ outcome, account.late effect outcome = false)
    (rest : ∀ outcome, account.Settles body reply opened closed (next (reply effect outcome))) :
    account.Settles body reply opened closed code := by
  refine settles_perform performs (fun outcome _ => ?_) fun outcome isLate => ?_
  · rw [opensNone, closesNone, List.append_nil, List.append_nil]
    exact rest outcome
  · rw [neverLate] at isLate
    cases isLate

theorem settles_wait
    {next : Code}
    (waits : body code = .wait next)
    (rest : account.Settles body reply opened closed next) :
    account.Settles body reply opened closed code := by
  intro events value run
  obtain ⟨events, rfl, afterwards⟩ := run.of_wait waits
  simpa [NoneLate, openedBy, closedBy, lateAt] using rest events value afterwards

theorem settles_suspend
    {next : Code}
    (suspends : body code = .suspend next)
    (rest : account.Settles body reply opened closed next) :
    account.Settles body reply opened closed code := by
  intro events value run
  obtain ⟨events, rfl, ⟨-, absent⟩ | afterwards⟩ := run.of_suspend suspends
  · cases absent
  · simpa [NoneLate, openedBy, closedBy, lateAt] using rest events value afterwards

theorem settles_ite
    {condition : Prop} [Decidable condition] {first second : Code}
    (positive : condition → account.Settles body reply opened closed first)
    (negative : ¬condition → account.Settles body reply opened closed second) :
    account.Settles body reply opened closed (if condition then first else second) := by
  split_ifs with holds
  · exact positive holds
  · exact negative holds

/-- The descriptor is closed before an error is returned. -/
theorem settles_closeAndFail
    {effect : Effect} {next : Reply effect → Code} {sock : SocketT} {error : NetworkErrorCode}
    (performs : body code = .perform effect next)
    (opensNone : ∀ outcome, account.opened effect outcome = [])
    (closes : account.closed effect = [sock])
    (neverLate : ∀ outcome, account.late effect outcome = false)
    (fails : ∀ outcome, body (next outcome) = .ret (.error error)) :
    account.Settles body reply [sock] [] code := by
  refine settles_perform performs (fun outcome _ => ?_) fun outcome isLate => ?_
  · rw [opensNone, closes]
    exact settles_ret (fails _) (List.Perm.refl _)
  · rw [neverLate] at isLate
    cases isLate

/-- The constructor makes a `dup`, or fails to. -/
theorem settled_ofDescriptor
    {sock : SocketT}
    (valid : sock ≠ socketInvalidHandle)
    (outSocket : Answer) :
    Settled ([sock] ++ outSocket.opened) []
      (.socket ⟨sock, outSocket.result⟩ : Result Own) := by
  refine ⟨?_, rfl⟩
  unfold BaseSocket.closing Answer.opened
  rw [if_pos valid]
  by_cases failed : outSocket.result = socketInvalidHandle
  · rw [if_neg (not_not.mpr failed), if_pos failed]
    exact List.Perm.refl _
  · rw [if_pos failed, if_neg failed]
    exact List.Perm.swap _ _ _

end Accounting

/-- A descriptor that is left open after an error. -/
theorem not_settled_error (sock : SocketT) {Own : Type} (error : NetworkErrorCode) :
    ¬Settled [sock] [] (.error error : Result Own) := fun settled =>
  List.cons_ne_nil _ _ settled.nil_eq.symm

/-! ## `tcp_socket::connect` -/

section Connect

variable {User Own Local : Type} (program : User → UserInstr User Own Local)

variable (User Own Local) in
/-- A connection is refused late, at once or after a suspension. -/
def connectAccount : Accounting (Effect.Reply Own : Effect User Local → Type) where
  opened
    | .syscall (.socket _), answer => Answer.opened answer
    | .syscall (.dup _), answer => Answer.opened answer
    | _, _ => []
  closed
    | .syscall (.close sock) => [sock]
    | _ => []
  late
    | .syscall (.connect _ _), answer => Answer.failed answer
    | .success, success => !success
    | _, _ => false

/-- The runs of a coroutine of the library settle their descriptors exactly when
nothing fails late. -/
def ConnectSettles (opened closed : List SocketT) (code : Code User Own) : Prop :=
  (connectAccount User Own Local).Settles (Code.instr program) (fun _ outcome => outcome)
    opened closed code

variable {program}

theorem connectSettles_closeAndFail (sock : SocketT) :
    ConnectSettles program [sock] []
      (.syscall (.close sock) fun _ => Code.fail .systemError) :=
  Accounting.settles_closeAndFail rfl (fun _ => rfl) rfl (fun _ => rfl) fun _ => rfl

theorem connectSettles_returnSocket
    {sock : SocketT}
    (valid : sock ≠ socketInvalidHandle) :
    ConnectSettles program [sock] [] (Code.returnSocket sock) := by
  refine Accounting.settles_perform rfl (fun outSocket _ => ?_) fun _ isLate => by cases isLate
  exact Accounting.settles_ret rfl (Accounting.settled_ofDescriptor valid outSocket)

/-- The suspension of a connection that is under way. -/
theorem connectSettles_park
    {sock : SocketT}
    (valid : sock ≠ socketInvalidHandle) :
    ConnectSettles program [sock] []
      (.overlapped (.park (Operation.connect sock).parkSteps (.success fun success =>
        if success then Code.returnSocket sock else Code.fail .systemError))) := by
  refine Accounting.settles_quiet rfl (fun _ => rfl) rfl (fun _ => rfl) fun _ => ?_
  refine Accounting.settles_quiet rfl (fun _ => rfl) rfl (fun _ => rfl) fun _ => ?_
  refine Accounting.settles_wait rfl (Accounting.settles_suspend rfl ?_)
  refine Accounting.settles_perform rfl (fun success onTime => ?_) fun success isLate => ?_
  · cases success with
    | false => cases onTime
    | true => exact connectSettles_returnSocket valid
  · cases success with
    | false => exact ⟨_, rfl, not_settled_error sock .systemError⟩
    | true => cases isLate

theorem connectSettles_connect (endpoint : Address) :
    ConnectSettles program [] [] (Code.connect endpoint) := by
  refine Accounting.settles_perform rfl (fun created _ => ?_) fun _ isLate => by cases isLate
  change ConnectSettles program ([] ++ Answer.opened created) [] _
  rw [List.nil_append]
  refine Accounting.settles_ite (fun error => ?_) fun valid => ?_
  · rw [Answer.opened_of_error error]
    exact Accounting.settles_ret rfl (List.Perm.refl [])
  · rw [Answer.opened_of_valid valid]
    refine Accounting.settles_quiet rfl (fun _ => rfl) rfl (fun _ => rfl) fun set => ?_
    refine Accounting.settles_ite (fun _ => connectSettles_closeAndFail _) fun _ => ?_
    refine Accounting.settles_quiet rfl (fun _ => rfl) rfl (fun _ => rfl) fun flags => ?_
    refine Accounting.settles_ite (fun _ => connectSettles_closeAndFail _) fun _ => ?_
    refine Accounting.settles_quiet rfl (fun _ => rfl) rfl (fun _ => rfl) fun set => ?_
    refine Accounting.settles_ite (fun _ => connectSettles_closeAndFail _) fun _ => ?_
    refine Accounting.settles_perform rfl (fun result onTime => ?_) fun result isLate => ?_
    · refine Accounting.settles_ite (fun failed => ?_) fun _ => ?_
      · exact absurd (onTime.symm.trans failed) Bool.false_ne_true
      · exact Accounting.settles_ite (fun _ => connectSettles_returnSocket valid)
          fun _ => connectSettles_park valid
    · exact ⟨.error .closed, congrArg (Code.instr program) (if_pos isLate),
        not_settled_error created.result .closed⟩

end Connect

/-! ## `tcp_listener::create` and `udp_socket::bind` -/

section Setup

variable {Own : Type}

/-- The address cannot be bound; `refused` is how the function tells. -/
def setupAccount (refused : Answer → Bool) : Accounting fun _ : SetupCall => Answer where
  opened
    | .posix (.socket _), answer => answer.opened
    | .datagramSocket _, answer => answer.opened
    | .posix (.dup _), answer => answer.opened
    | _, _ => []
  closed
    | .posix (.close sock) => [sock]
    | _ => []
  late
    | .bind _ _, answer => refused answer
    | _, _ => false

/-- The runs of a function that sets up a socket settle their descriptors exactly
when the address can be bound. -/
def SetupSettles (refused : Answer → Bool) (opened closed : List SocketT)
    (code : SetupCode Own) : Prop :=
  (setupAccount refused).Settles SetupCode.instr (fun _ outcome => outcome) opened closed code

variable {refused : Answer → Bool} {sock : SocketT}

theorem setupSettles_closeAndFail :
    SetupSettles refused [sock] [] (SetupCode.closeAndFail sock : SetupCode Own) :=
  Accounting.settles_closeAndFail rfl (fun _ => rfl) rfl (fun _ => rfl) fun _ => rfl

theorem setupSettles_returnSocket (valid : sock ≠ socketInvalidHandle) :
    SetupSettles refused [sock] [] (SetupCode.returnSocket sock : SetupCode Own) := by
  refine Accounting.settles_perform rfl (fun outSocket _ => ?_) fun _ isLate => by cases isLate
  exact Accounting.settles_ret rfl (Accounting.settled_ofDescriptor valid outSocket)

theorem setupSettles_setFlags
    {next : SetupCode Own}
    (settles : SetupSettles refused [sock] [] next) :
    SetupSettles refused [sock] [] (SetupCode.setFlags sock next) := by
  refine Accounting.settles_quiet rfl (fun _ => rfl) rfl (fun _ => rfl) fun set => ?_
  refine Accounting.settles_ite (fun _ => setupSettles_closeAndFail) fun _ => ?_
  refine Accounting.settles_quiet rfl (fun _ => rfl) rfl (fun _ => rfl) fun flags => ?_
  refine Accounting.settles_ite (fun _ => setupSettles_closeAndFail) fun _ => ?_
  refine Accounting.settles_quiet rfl (fun _ => rfl) rfl (fun _ => rfl) fun set => ?_
  exact Accounting.settles_ite (fun _ => setupSettles_closeAndFail) fun _ => settles

/-- Binding, after which the function returns an error or goes on. -/
theorem setupSettles_bind
    {endpoint : Address} {next : Answer → SetupCode Own}
    (fails : ∀ answer, refused answer = true → ∃ error, next answer = SetupCode.fail error)
    (goesOn : ∀ answer, refused answer = false → SetupSettles refused [sock] [] (next answer)) :
    SetupSettles refused [sock] [] (.call (.bind sock endpoint) next) := by
  refine Accounting.settles_perform rfl (fun bound onTime => goesOn bound onTime)
    fun bound isLate => ?_
  obtain ⟨error, isFail⟩ := fails bound isLate
  exact ⟨.error error, congrArg SetupCode.instr isFail, not_settled_error sock error⟩

/-- The result of the first call. -/
theorem setupSettles_created
    {created : Answer} {next : SetupCode Own}
    (goesOn : created.result ≠ socketInvalidHandle →
      SetupSettles refused [created.result] [] next) :
    SetupSettles refused created.opened []
      (if created.result = Code.socketError then SetupCode.fail .systemError else next) := by
  refine Accounting.settles_ite (fun error => ?_) fun valid => ?_
  · rw [Answer.opened_of_error error]
    exact Accounting.settles_ret rfl (List.Perm.refl [])
  · rw [Answer.opened_of_valid valid]
    exact goesOn valid

/-- `bind(...) == socket_error`. -/
def createRefused (bound : Answer) : Bool := bound.result = Code.socketError

/-- `bind(...) != 0`. -/
def bindRefused (bound : Answer) : Bool := bound.result ≠ 0

theorem setupSettles_create (localEndpoint : Address) :
    SetupSettles createRefused [] [] (SetupCode.create localEndpoint : SetupCode Own) := by
  refine Accounting.settles_perform rfl (fun created _ => ?_) fun _ isLate => by cases isLate
  apply setupSettles_created
  intro valid
  refine Accounting.settles_quiet rfl (fun _ => rfl) rfl (fun _ => rfl) fun set => ?_
  refine Accounting.settles_ite (fun _ => setupSettles_closeAndFail) fun _ => ?_
  refine Accounting.settles_quiet rfl (fun _ => rfl) rfl (fun _ => rfl) fun set => ?_
  refine Accounting.settles_ite (fun _ => setupSettles_closeAndFail) fun _ => ?_
  refine setupSettles_setFlags
    (setupSettles_bind (fun bound isRefused => ?_) fun bound isBound => ?_)
  · exact ⟨.systemError, if_pos (of_decide_eq_true isRefused)⟩
  · rw [if_neg (of_decide_eq_false isBound)]
    exact Accounting.settles_quiet rfl (fun _ => rfl) rfl (fun _ => rfl)
      fun _ => setupSettles_returnSocket valid

theorem setupSettles_udpBind (localEndpoint : Address) :
    SetupSettles bindRefused [] [] (SetupCode.bind localEndpoint : SetupCode Own) := by
  refine Accounting.settles_perform rfl (fun created _ => ?_) fun _ isLate => by cases isLate
  apply setupSettles_created
  intro valid
  refine Accounting.settles_quiet rfl (fun _ => rfl) rfl (fun _ => rfl) fun set => ?_
  refine Accounting.settles_ite (fun _ => setupSettles_closeAndFail) fun _ => ?_
  refine setupSettles_setFlags
    (setupSettles_bind (fun bound isRefused => ?_) fun bound isBound => ?_)
  · exact ⟨.closed, if_pos (of_decide_eq_true isRefused)⟩
  · rw [if_neg (of_decide_eq_false isBound)]
    exact setupSettles_returnSocket valid

end Setup

/-! ## Runs -/

/-- Every run that returns settles its descriptors. -/
def NeverLeaks {Code Effect Own : Type} {Outcome : Effect → Type}
    (account : Accounting Outcome)
    (body : Code → Instr Code Effect (Result Own) Outcome)
    (code : Code) : Prop :=
  ∀ events value, Runs body (fun _ outcome => outcome) code events (some value) →
    account.SettledOn events value

/-- A run of `tcp_socket::connect`, `tcp_listener::create` or `udp_socket::bind`
settles its descriptors exactly when nothing fails on it after the descriptor is
set up: no connection is refused, and the address can be bound. -/
theorem settledOn_iff
    {User Own Local : Type} (program : User → UserInstr User Own Local) (endpoint : Address) :
    (∀ events value,
      Runs (Code.instr program) (fun _ outcome => outcome) (Code.connect endpoint) events
          (some value) →
        ((connectAccount User Own Local).SettledOn events value ↔
          (connectAccount User Own Local).NoneLate events)) ∧
    (∀ events (value : Result Own),
      Runs SetupCode.instr (fun _ outcome => outcome) (SetupCode.create endpoint) events
          (some value) →
        ((setupAccount createRefused).SettledOn events value ↔
          (setupAccount createRefused).NoneLate events)) ∧
    ∀ events (value : Result Own),
      Runs SetupCode.instr (fun _ outcome => outcome) (SetupCode.bind endpoint) events
          (some value) →
        ((setupAccount bindRefused).SettledOn events value ↔
          (setupAccount bindRefused).NoneLate events) :=
  ⟨connectSettles_connect endpoint, setupSettles_create endpoint, setupSettles_udpBind endpoint⟩

/-- A connection that is established at once. -/
theorem settledOn_established :
    (connectAccount Empty Empty Empty).SettledOn
      [.performed (.syscall (.socket 0)) ⟨3, .other⟩, .performed (.syscall (.setFd 3)) ⟨0, .other⟩,
        .performed (.syscall (.getFl 3)) ⟨2, .other⟩,
        .performed (.syscall (.setFl 3 2050)) ⟨0, .other⟩,
        .performed (.syscall (.connect 3 0)) ⟨0, .other⟩,
        .performed (.syscall (.dup 3)) ⟨4, .other⟩]
      (.socket ⟨3, 4⟩ : Result Empty) :=
  ((settledOn_iff Empty.elim 0).1 _ _
    (.perform rfl (.perform rfl (.perform rfl (.perform rfl (.perform rfl (.perform rfl
      (.ret rfl)))))))).mpr (by decide)

/-- A connection that is refused at once, and addresses that are in use. -/
theorem not_neverLeaks :
    ¬NeverLeaks (connectAccount Empty Empty Empty) (Code.instr Empty.elim) (Code.connect 0) ∧
      ¬NeverLeaks (setupAccount createRefused) SetupCode.instr
        (SetupCode.create 0 : SetupCode Empty) ∧
      ¬NeverLeaks (setupAccount bindRefused) SetupCode.instr
        (SetupCode.bind 0 : SetupCode Empty) := by
  refine ⟨fun never => ?_, fun never => ?_, fun never => ?_⟩
  · refine not_settled_error 3 .closed (never
      [.performed (.syscall (.socket 0)) ⟨3, .other⟩, .performed (.syscall (.setFd 3)) ⟨0, .other⟩,
        .performed (.syscall (.getFl 3)) ⟨2, .other⟩,
        .performed (.syscall (.setFl 3 2050)) ⟨0, .other⟩,
        .performed (.syscall (.connect 3 0)) ⟨-1, .other⟩] (.error .closed) ?_)
    exact .perform rfl (.perform rfl (.perform rfl (.perform rfl (.perform rfl (.ret rfl)))))
  · refine not_settled_error 3 .systemError (never
      [.performed (.posix (.socket 0)) ⟨3, .other⟩, .performed (.setReuseAddr 3) ⟨0, .other⟩,
        .performed (.setDeferAccept 3) ⟨0, .other⟩, .performed (.posix (.setFd 3)) ⟨0, .other⟩,
        .performed (.posix (.getFl 3)) ⟨2, .other⟩,
        .performed (.posix (.setFl 3 2050)) ⟨0, .other⟩,
        .performed (.bind 3 0) ⟨-1, .other⟩] (.error .systemError) ?_)
    exact .perform rfl (.perform rfl (.perform rfl (.perform rfl (.perform rfl (.perform rfl
      (.perform rfl (.ret rfl)))))))
  · refine not_settled_error 3 .closed (never
      [.performed (.datagramSocket 0) ⟨3, .other⟩, .performed (.setReuseAddr 3) ⟨0, .other⟩,
        .performed (.posix (.setFd 3)) ⟨0, .other⟩, .performed (.posix (.getFl 3)) ⟨2, .other⟩,
        .performed (.posix (.setFl 3 2050)) ⟨0, .other⟩,
        .performed (.bind 3 0) ⟨-1, .other⟩] (.error .closed) ?_)
    exact .perform rfl (.perform rfl (.perform rfl (.perform rfl (.perform rfl (.perform rfl
      (.ret rfl))))))

end Cppio
