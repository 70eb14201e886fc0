import Cppio.Network.BaseSocket
import Cppio.Task.Coroutine

/-!
# The coroutines of the library

The POSIX socket operations as coroutines: their system calls, their loops, and
how they park.  The coroutines of a program use them, sleep, spawn, await and
yield; what else these do is left open.  A buffer and an endpoint are given by
address, and what a call reads or writes there is not part of the model.
-/

namespace Cppio

/-- `network_error_code`, the codes that the operations return. -/
inductive NetworkErrorCode
  | closed
  | systemError
  deriving DecidableEq

/-- `errno`, as far as the operations tell its values apart. -/
inductive Errno
  | inProgress
  | wouldBlock
  | other
  deriving DecidableEq

/-- What a system call returns, and the `errno` it leaves. -/
structure Answer where
  result : Int
  errno : Errno
  deriving DecidableEq

/-- `result < 0 && errno != EINPROGRESS && errno != EWOULDBLOCK`. -/
def Answer.failed (answer : Answer) : Bool :=
  answer.result < 0 && answer.errno ≠ .inProgress && answer.errno ≠ .wouldBlock

/-- The address of a buffer or of an endpoint. -/
abbrev Address := Nat

/-- The system calls of the operations. -/
inductive Syscall
  /-- `socket(endpoint.type(), SOCK_STREAM, IPPROTO_TCP)`. -/
  | socket (endpoint : Address)
  /-- `fcntl(sock, F_SETFD, FD_CLOEXEC)`. -/
  | setFd (sock : SocketT)
  | getFl (sock : SocketT)
  | setFl (sock : SocketT) (flags : Nat)
  | connect (sock : SocketT) (endpoint : Address)
  | accept (sock : SocketT)
  | dup (sock : SocketT)
  | recv (sock : SocketT) (buffer : Address) (size : Nat)
  | send (sock : SocketT) (buffer : Address) (size : Nat)
  | recvfrom (sock : SocketT) (buffer : Address) (size : Nat)
  | sendto (sock : SocketT) (buffer : Address) (size : Nat) (endpoint : Address)
  | close (sock : SocketT)

/-- What a coroutine returns.  `own` is for the values of the program. -/
inductive Result (Own : Type)
  | own (value : Own)
  | socket (sock : BaseSocket)
  | size (size : Nat)
  | error (code : NetworkErrorCode)

/-- A task that is spawned or awaited: a coroutine of the program, or an
operation with its arguments. -/
inductive Start (User : Type)
  | user (here : User)
  | connect (endpoint : Address)
  | accept (sock : BaseSocket)
  | tcpRead (sock : BaseSocket) (buffer : Address) (size : Nat)
  | tcpReadExactly (sock : BaseSocket) (buffer : Address) (size : Nat)
  | tcpWrite (sock : BaseSocket) (buffer : Address) (size : Nat)
  | udpRead (sock : BaseSocket) (buffer : Address) (size : Nat)
  | udpWrite (sock : BaseSocket) (endpoint : Address) (buffer : Address) (size : Nat)

/-- What a coroutine of the program does next. -/
inductive UserInstr (User Own Local : Type)
  /-- Anything that does not touch the reactor. -/
  | perform (effect : Local) (next : Own → User)
  | spawn (start : Start User) (next : User)
  | await (child : Start User) (next : Result Own → User)
  /-- `co_await cppio::sleep(delay)`. -/
  | sleep (delay : Int) (next : User)
  | yield (next : User)
  | ret (value : Own)

/-- The effects of the coroutines. -/
inductive Effect (User Local : Type)
  | syscall (syscall : Syscall)
  /-- The constructor of `basic_overlapped`. -/
  | overlapped
  /-- Reading `overlapped.success`. -/
  | success
  /-- `add_for_read` or `add_for_write`. -/
  | register (interest : Interest) (sock : SocketT)
  | startTimer (delay : Int)
  | perform (effect : Local)
  | spawn (start : Start User)

/-- What an effect returns. -/
@[reducible] def Effect.Reply (Own : Type) {User Local : Type} : Effect User Local → Type
  | .syscall _ => Answer
  | .success => Bool
  | .perform _ => Own
  | _ => Unit

/-- The effect hands the task over to epoll or to the timer pool. -/
def Effect.isArm {User Local : Type} : Effect User Local → Bool
  | .register _ _ => true
  | .startTimer _ => true
  | _ => false

/-- The code of a coroutine.  The loops of the operations are constructors. -/
inductive Code (User Own : Type)
  | user (here : User)
  | syscall (syscall : Syscall) (next : Answer → Code User Own)
  | overlapped (next : Code User Own)
  | park (steps : List (ParkStep SocketT)) (next : Code User Own)
  | success (next : Bool → Code User Own)
  | ret (value : Result Own)
  /-- The loop of `tcp_socket::read`. -/
  | tcpRead (sock : BaseSocket) (buffer : Address) (size : Nat)
  /-- The loop of `tcp_socket::read_exactly`. -/
  | tcpReadExactly (sock : BaseSocket) (buffer : Address) (size totalRead : Nat)
  /-- The loop of `tcp_socket::write`. -/
  | tcpWrite (sock : BaseSocket) (buffer : Address) (size sent : Nat)
  /-- The loop of `udp_socket::read`. -/
  | udpRead (sock : BaseSocket) (buffer : Address) (size : Nat)
  /-- The loop of `udp_socket::write`. -/
  | udpWrite (writeSock : SocketT) (endpoint : Address) (buffer : Address) (size : Nat)

namespace Code

variable {User Own Local : Type}

/-- `socket_error`. -/
def socketError : Int := -1

/-- `O_NONBLOCK`. -/
def oNonblock : Nat := 2048

/-- `co_return code`. -/
def fail (code : NetworkErrorCode) : Code User Own := .ret (.error code)

/-- `co_return tcp_socket{ sock }`. -/
def returnSocket (sock : SocketT) : Code User Own :=
  .syscall (.dup sock) fun outSocket => .ret (.socket ⟨sock, outSocket.result⟩)

/-- `tcp_socket::connect`. -/
def connect (endpoint : Address) : Code User Own :=
  .syscall (.socket endpoint) fun created =>
    let sock := created.result
    let closeAndFail := .syscall (.close sock) fun _ => fail .systemError
    if sock = socketError then fail .systemError
    else .syscall (.setFd sock) fun set =>
      if set.result = socketError then closeAndFail
      else .syscall (.getFl sock) fun flags =>
        if flags.result = socketError then closeAndFail
        else .syscall (.setFl sock (flags.result.toNat ||| oNonblock)) fun set =>
          if set.result = socketError then closeAndFail
          else .syscall (.connect sock endpoint) fun result =>
            if result.failed then fail .closed
            else if result.result = 0 then returnSocket sock
            else .overlapped (.park (Operation.connect sock).parkSteps (.success fun success =>
              if success then returnSocket sock else fail .systemError))

/-- `tcp_listener::accept`. -/
def accept (sock : BaseSocket) : Code User Own :=
  .overlapped (.park (Operation.accept sock.socket).parkSteps
    (.syscall (.accept sock.socket) fun accepted =>
      if accepted.result > -1 then returnSocket accepted.result else fail .systemError))

/-- `tcp_socket::read`. -/
def read (sock : BaseSocket) (buffer : Address) (size : Nat) : Code User Own :=
  .tcpRead sock buffer size

/-- `tcp_socket::read_exactly`. -/
def readExactly (sock : BaseSocket) (buffer : Address) (size : Nat) : Code User Own :=
  .tcpReadExactly sock buffer size 0

/-- `udp_socket::read`. -/
def readFrom (sock : BaseSocket) (buffer : Address) (size : Nat) : Code User Own :=
  .udpRead sock buffer size

/-- `tcp_socket::write`. -/
def write (sock : BaseSocket) (buffer : Address) (size : Nat) : Code User Own :=
  .overlapped (.tcpWrite sock buffer size 0)

/-- `udp_socket::write`. -/
def writeTo (sock : BaseSocket) (endpoint buffer : Address) (size : Nat) : Code User Own :=
  .overlapped (.syscall (.dup sock.outSocket) fun writeSock =>
    if writeSock.result = socketInvalidHandle then fail .systemError
    else .udpWrite writeSock.result endpoint buffer size)

/-- A loop that receives, after its system call; `again` is its next round. -/
def received (operation : Operation SocketT) (again : Code User Own) (result : Answer) :
    Code User Own :=
  if result.failed then fail .closed
  else if result.result > 0 then .ret (.size result.result.toNat)
  else .overlapped (.park operation.parkSteps (.success fun success =>
    if success then again else fail .closed))

/-- The loop of `tcp_socket::read_exactly`, after its `co_await`. -/
def readSome (sock : BaseSocket) (buffer : Address) (size totalRead : Nat) :
    Result Own → Code User Own
  | .size read => .tcpReadExactly sock buffer size (totalRead + read)
  | _ => fail .closed

/-- The loop of `tcp_socket::write`, after its system call. -/
def sentSome (sock : BaseSocket) (buffer : Address) (size sent : Nat) (result : Answer) :
    Code User Own :=
  if result.failed then fail .closed
  else
    let sent := if result.result > 0 then sent + result.result.toNat else sent
    let again := .tcpWrite sock buffer size sent
    if sent < size then
      .park (Operation.tcpWrite sock.outSocket).parkSteps (.success fun success =>
        if success then again else fail .closed)
    else again

/-- The loop of `udp_socket::write`, after its system call. -/
def sentTo (writeSock : SocketT) (endpoint buffer : Address) (size : Nat) (result : Answer) :
    Code User Own :=
  let closeAndFail := .syscall (.close writeSock) fun _ => fail .closed
  if result.failed then closeAndFail
  else if result.result > 0 then
    .syscall (.close writeSock) fun _ => .ret (.size result.result.toNat)
  else .park (Operation.udpWrite writeSock).parkSteps (.success fun success =>
    if success then .udpWrite writeSock endpoint buffer size else closeAndFail)

end Code

/-- The coroutine of a task that has not started. -/
def Start.code {User Own : Type} : Start User → Code User Own
  | .user here => .user here
  | .connect endpoint => Code.connect endpoint
  | .accept sock => Code.accept sock
  | .tcpRead sock buffer size => Code.read sock buffer size
  | .tcpReadExactly sock buffer size => Code.readExactly sock buffer size
  | .tcpWrite sock buffer size => Code.write sock buffer size
  | .udpRead sock buffer size => Code.readFrom sock buffer size
  | .udpWrite sock endpoint buffer size => Code.writeTo sock endpoint buffer size

namespace Code

variable {User Own Local : Type}

/-- What an operation does next on its way to suspension. -/
def parkInstr (next : Code User Own) : List (ParkStep SocketT) →
    Instr (Code User Own) (Effect User Local) (Result Own) (Effect.Reply Own)
  | [] => .suspend next
  | .wait :: steps => .wait (.park steps next)
  | .register interest sock :: steps => .perform (.register interest sock) fun _ => .park steps next
  | .startTimer delay :: steps => .perform (.startTimer delay) fun _ => .park steps next

/-- What a coroutine of the program does next. -/
def userInstr : UserInstr User Own Local →
    Instr (Code User Own) (Effect User Local) (Result Own) (Effect.Reply Own)
  | .perform effect next => .perform (.perform effect) fun value => .user (next value)
  | .spawn start next => .perform (.spawn start) fun _ => .user next
  | .await child next => .await child.code fun result => .user (next result)
  | .sleep delay next => parkInstr (.user next) (Operation.sleep delay).parkSteps
  | .yield next => .suspend (.user next)
  | .ret value => .ret (.own value)

/-- What a coroutine does next. -/
def instr (program : User → UserInstr User Own Local) : Code User Own →
    Instr (Code User Own) (Effect User Local) (Result Own) (Effect.Reply Own)
  | .user here => userInstr (program here)
  | .syscall call next => .perform (.syscall call) next
  | .overlapped next => .perform .overlapped fun _ => next
  | .park steps next => parkInstr next steps
  | .success next => .perform .success next
  | .ret value => .ret value
  | .tcpRead sock buffer size =>
      .perform (.syscall (.recv sock.socket buffer size))
        (received (.tcpRead sock.socket) (.tcpRead sock buffer size))
  | .tcpReadExactly sock buffer size totalRead =>
      if totalRead ≠ size then
        .await (read sock (buffer + totalRead) (size - totalRead))
          (readSome sock buffer size totalRead)
      else .ret (.size 0)
  | .tcpWrite sock buffer size sent =>
      if sent < size then
        .perform (.syscall (.send sock.outSocket (buffer + sent) (size - sent)))
          (sentSome sock buffer size sent)
      else .ret (.size sent)
  | .udpRead sock buffer size =>
      .perform (.syscall (.recvfrom sock.socket buffer size))
        (received (.udpRead sock.socket) (.udpRead sock buffer size))
  | .udpWrite writeSock endpoint buffer size =>
      .perform (.syscall (.sendto writeSock buffer size endpoint))
        (sentTo writeSock endpoint buffer size)

/-- An effect on the way to suspension hands the task over. -/
theorem parkInstr_eq_perform
    {steps : List (ParkStep SocketT)} {next : Code User Own} {effect : Effect User Local}
    {after : effect.Reply Own → Code User Own}
    (parks : parkInstr next steps = .perform effect after) :
    ∃ arm rest, steps = arm :: rest ∧ arm.isArm = true ∧ arm ≠ .wait ∧
      effect.isArm = true ∧ ∀ reply, after reply = .park rest next := by
  cases steps with
  | nil => cases parks
  | cons step rest =>
      cases step with
      | wait => cases parks
      | register interest sock =>
          cases parks
          exact ⟨_, rest, rfl, rfl, by simp, rfl, fun _ => rfl⟩
      | startTimer delay =>
          cases parks
          exact ⟨_, rest, rfl, rfl, by simp, rfl, fun _ => rfl⟩

theorem parkInstr_eq_wait
    {steps : List (ParkStep SocketT)} {next after : Code User Own}
    (parks : (parkInstr next steps : Instr (Code User Own) (Effect User Local) (Result Own)
      (Effect.Reply Own)) = .wait after) :
    ∃ rest, steps = .wait :: rest ∧ after = .park rest next := by
  cases steps with
  | nil => cases parks
  | cons step rest =>
      cases step with
      | wait =>
          cases parks
          exact ⟨rest, rfl, rfl⟩
      | register interest sock => cases parks
      | startTimer delay => cases parks

theorem parkInstr_eq_suspend
    {steps : List (ParkStep SocketT)} {next after : Code User Own}
    (parks : (parkInstr next steps : Instr (Code User Own) (Effect User Local) (Result Own)
      (Effect.Reply Own)) = .suspend after) :
    steps = [] ∧ after = next := by
  cases steps with
  | nil =>
      cases parks
      exact ⟨rfl, rfl⟩
  | cons step rest => cases step with | _ => cases parks

/-- On the way to suspension a coroutine neither awaits a child nor returns. -/
theorem parkInstr_cases (steps : List (ParkStep SocketT)) (next : Code User Own) :
    (∃ after, (parkInstr next steps : Instr (Code User Own) (Effect User Local) (Result Own)
        (Effect.Reply Own)) = .suspend after) ∨
      (∃ after, (parkInstr next steps : Instr (Code User Own) (Effect User Local) (Result Own)
        (Effect.Reply Own)) = .wait after) ∨
      ∃ effect after, (parkInstr next steps : Instr (Code User Own) (Effect User Local)
        (Result Own) (Effect.Reply Own)) = .perform effect after := by
  cases steps with
  | nil => exact Or.inl ⟨_, rfl⟩
  | cons step rest =>
      cases step with
      | wait => exact Or.inr (Or.inl ⟨_, rfl⟩)
      | register interest sock => exact Or.inr (Or.inr ⟨_, _, rfl⟩)
      | startTimer delay => exact Or.inr (Or.inr ⟨_, _, rfl⟩)

/-! ## What a step can be

A coroutine of the program may do anything, one of the library only what is listed. -/

section

variable {program : User → UserInstr User Own Local} {code next : Code User Own}

theorem park_ne_await
    {steps : List (ParkStep SocketT)} {child : Code User Own} {after : Result Own → Code User Own} :
    (park steps next).instr program ≠ .await child after := by
  intro awaits
  cases steps with
  | nil => cases awaits
  | cons step steps => cases step <;> cases awaits

theorem park_ne_ret {steps : List (ParkStep SocketT)} {value : Result Own} :
    (park steps next).instr program ≠ .ret value := by
  intro returns
  cases steps with
  | nil => cases returns
  | cons step steps => cases step <;> cases returns

theorem instr_eq_wait (waits : code.instr program = .wait next) :
    (∃ here, code = .user here) ∨
      ∃ rest after, code = .park (.wait :: rest) after ∧ next = .park rest after := by
  cases code with
  | user here => exact Or.inl ⟨here, rfl⟩
  | park steps after =>
      obtain ⟨rest, rfl, rfl⟩ := parkInstr_eq_wait waits
      exact Or.inr ⟨rest, after, rfl, rfl⟩
  | tcpReadExactly sock buffer size totalRead =>
      rw [instr] at waits
      split_ifs at waits
  | tcpWrite sock buffer size sent =>
      rw [instr] at waits
      split_ifs at waits
  | _ => cases waits

theorem instr_eq_suspend (suspends : code.instr program = .suspend next) :
    (∃ here, code = .user here) ∨ code = .park [] next := by
  cases code with
  | user here => exact Or.inl ⟨here, rfl⟩
  | park steps after =>
      obtain ⟨rfl, rfl⟩ := parkInstr_eq_suspend suspends
      exact Or.inr rfl
  | tcpReadExactly sock buffer size totalRead =>
      rw [instr] at suspends
      split_ifs at suspends
  | tcpWrite sock buffer size sent =>
      rw [instr] at suspends
      split_ifs at suspends
  | _ => cases suspends

theorem instr_eq_await
    {child : Code User Own} {after : Result Own → Code User Own}
    (awaits : code.instr program = .await child after) :
    (∃ here, code = .user here) ∨
      ∃ sock buffer size totalRead, totalRead ≠ size ∧
        code = .tcpReadExactly sock buffer size totalRead ∧
        child = read sock (buffer + totalRead) (size - totalRead) ∧
        after = readSome sock buffer size totalRead := by
  cases code with
  | user here => exact Or.inl ⟨here, rfl⟩
  | park steps after => exact absurd awaits park_ne_await
  | tcpReadExactly sock buffer size totalRead =>
      rw [instr] at awaits
      split_ifs at awaits with more
      cases awaits
      exact Or.inr ⟨sock, buffer, size, totalRead, more, rfl, rfl, rfl⟩
  | tcpWrite sock buffer size sent =>
      rw [instr] at awaits
      split_ifs at awaits
  | _ => cases awaits

theorem instr_eq_ret
    {value : Result Own}
    (returns : code.instr program = .ret value) :
    (∃ here, code = .user here) ∨ code = .ret value ∨
      (∃ sock buffer size, code = .tcpReadExactly sock buffer size size ∧ value = .size 0) ∨
      ∃ sock buffer size sent, size ≤ sent ∧ code = .tcpWrite sock buffer size sent ∧
        value = .size sent := by
  cases code with
  | user here => exact Or.inl ⟨here, rfl⟩
  | park steps after => exact absurd returns park_ne_ret
  | ret value' =>
      cases returns
      exact Or.inr (Or.inl rfl)
  | tcpReadExactly sock buffer size totalRead =>
      rw [instr] at returns
      split_ifs at returns with whole
      cases returns
      obtain rfl := not_not.mp whole
      exact Or.inr (Or.inr (Or.inl ⟨sock, buffer, _, rfl, rfl⟩))
  | tcpWrite sock buffer size sent =>
      rw [instr] at returns
      split_ifs at returns with less
      cases returns
      exact Or.inr (Or.inr (Or.inr ⟨sock, buffer, size, sent, Nat.le_of_not_lt less, rfl, rfl⟩))
  | _ => cases returns

end

/-! ## How coroutines park -/

/-- Wherever the code goes, it calls `wait()` once on its way to a suspension of
an operation, and hands its task over at most once. -/
def ParksOnce : Code User Own → Prop
  | .syscall _ next => ∀ answer, (next answer).ParksOnce
  | .overlapped next => next.ParksOnce
  | .park steps next =>
      steps.count .wait = 1 ∧ steps.countP ParkStep.isArm ≤ 1 ∧ next.ParksOnce
  | .success next => ∀ success, (next success).ParksOnce
  | _ => True

theorem parksOnce_park
    (operation : Operation SocketT) {next : Code User Own} (parksOnce : next.ParksOnce) :
    (park operation.parkSteps next).ParksOnce :=
  ⟨operation.count_wait, Nat.le_of_eq operation.countP_isArm, parksOnce⟩

theorem parksOnce_returnSocket (sock : SocketT) :
    (returnSocket sock : Code User Own).ParksOnce := fun _ => trivial

theorem parksOnce_ite
    {condition : Prop} [Decidable condition] {first second : Code User Own}
    (parksOnce : first.ParksOnce) (parksOnce' : second.ParksOnce) :
    (if condition then first else second).ParksOnce := by
  split_ifs
  · exact parksOnce
  · exact parksOnce'

theorem parksOnce_connect (endpoint : Address) : (connect endpoint : Code User Own).ParksOnce := by
  intro created
  refine parksOnce_ite trivial fun set => ?_
  refine parksOnce_ite (fun _ => trivial) fun flags => ?_
  refine parksOnce_ite (fun _ => trivial) fun set => ?_
  refine parksOnce_ite (fun _ => trivial) fun result => ?_
  refine parksOnce_ite trivial (parksOnce_ite (parksOnce_returnSocket _) ?_)
  apply parksOnce_park _
  intro success
  exact parksOnce_ite (parksOnce_returnSocket _) trivial

theorem parksOnce_accept (sock : BaseSocket) : (accept sock : Code User Own).ParksOnce := by
  apply parksOnce_park (.accept sock.socket)
  intro accepted
  exact parksOnce_ite (parksOnce_returnSocket _) trivial

theorem parksOnce_received
    (operation : Operation SocketT) {again : Code User Own} (parksOnce : again.ParksOnce)
    (result : Answer) :
    (received operation again result).ParksOnce := by
  refine parksOnce_ite trivial (parksOnce_ite trivial ?_)
  exact parksOnce_park operation fun success => parksOnce_ite parksOnce trivial

theorem parksOnce_readSome
    (sock : BaseSocket) (buffer : Address) (size totalRead : Nat) (result : Result Own) :
    (readSome sock buffer size totalRead result : Code User Own).ParksOnce := by
  cases result with
  | _ => trivial

theorem parksOnce_sentSome
    (sock : BaseSocket) (buffer : Address) (size sent : Nat) (result : Answer) :
    (sentSome sock buffer size sent result : Code User Own).ParksOnce := by
  refine parksOnce_ite trivial (parksOnce_ite ?_ trivial)
  exact parksOnce_park _ fun success => parksOnce_ite trivial trivial

theorem parksOnce_sentTo
    (writeSock : SocketT) (endpoint buffer : Address) (size : Nat) (result : Answer) :
    (sentTo writeSock endpoint buffer size result : Code User Own).ParksOnce := by
  refine parksOnce_ite (fun _ => trivial) (parksOnce_ite (fun _ => trivial) ?_)
  exact parksOnce_park _ fun success => parksOnce_ite trivial fun _ => trivial

/-- Every task that is spawned or awaited parks as the operations do. -/
theorem parksOnce_code (start : Start User) : (start.code : Code User Own).ParksOnce := by
  cases start with
  | connect endpoint => exact parksOnce_connect endpoint
  | accept sock => exact parksOnce_accept sock
  | udpWrite sock endpoint buffer size => exact fun writeSock => parksOnce_ite trivial trivial
  | _ => trivial

/-- A step that leaves alone how the task is parked. -/
inductive Calm :
    Instr (Code User Own) (Effect User Local) (Result Own) (Effect.Reply Own) → Prop
  | perform {effect : Effect User Local} {next : effect.Reply Own → Code User Own}
      (calm : effect.isArm = false) (parksOnce : ∀ reply, (next reply).ParksOnce) :
      Calm (.perform effect next)
  | suspend {next : Code User Own} (parksOnce : next.ParksOnce) : Calm (.suspend next)
  | await {child : Code User Own} {next : Result Own → Code User Own}
      (parksOnce : child.ParksOnce) (parksOnceNext : ∀ result, (next result).ParksOnce) :
      Calm (.await child next)
  | ret {value : Result Own} : Calm (.ret value)

/-- A coroutine takes a step that leaves alone how its task is parked, or it is
about to suspend in an operation. -/
theorem calm_or_park
    (program : User → UserInstr User Own Local) {code : Code User Own}
    (parksOnce : code.ParksOnce) :
    Calm (code.instr program) ∨
      ∃ steps next, code.instr program = parkInstr next steps ∧
        steps.count .wait = 1 ∧ steps.countP ParkStep.isArm ≤ 1 ∧ next.ParksOnce := by
  cases code with
  | user here =>
      rw [instr]
      cases program here with
      | perform effect next => exact Or.inl (.perform rfl fun _ => trivial)
      | spawn start next => exact Or.inl (.perform rfl fun _ => trivial)
      | await child next => exact Or.inl (.await (parksOnce_code child) fun _ => trivial)
      | sleep delay next =>
          have sleeps :
              (park (Operation.sleep delay).parkSteps (.user next) : Code User Own).ParksOnce :=
            parksOnce_park (.sleep delay) trivial
          exact Or.inr ⟨_, .user next, rfl, sleeps⟩
      | yield next => exact Or.inl (.suspend trivial)
      | ret value => exact Or.inl .ret
  | syscall call next => exact Or.inl (.perform rfl parksOnce)
  | overlapped next => exact Or.inl (.perform rfl fun _ => parksOnce)
  | park steps next => exact Or.inr ⟨steps, next, rfl, parksOnce⟩
  | success next => exact Or.inl (.perform rfl parksOnce)
  | ret value => exact Or.inl .ret
  | tcpRead sock buffer size =>
      have again : (tcpRead sock buffer size : Code User Own).ParksOnce := trivial
      exact Or.inl (.perform rfl (parksOnce_received (.tcpRead sock.socket) again))
  | tcpReadExactly sock buffer size totalRead =>
      rw [instr]
      split_ifs
      · exact Or.inl (.await trivial (parksOnce_readSome sock buffer size _))
      · exact Or.inl .ret
  | tcpWrite sock buffer size sent =>
      rw [instr]
      split_ifs
      · exact Or.inl (.perform rfl (parksOnce_sentSome sock buffer size sent))
      · exact Or.inl .ret
  | udpRead sock buffer size =>
      have again : (udpRead sock buffer size : Code User Own).ParksOnce := trivial
      exact Or.inl (.perform rfl (parksOnce_received (.udpRead sock.socket) again))
  | udpWrite writeSock endpoint buffer size =>
      exact Or.inl (.perform rfl (parksOnce_sentTo writeSock endpoint buffer size))

end Code

end Cppio
