import Cppio.Reactor.Calls

/-!
# Which system calls an operation makes

The code of an operation makes certain system calls only, on every execution.  Of the
operations only `tcp_socket::write` sends on a stream, and only the reads of
`tcp_socket` receive from one, each on the descriptor of its own socket.
-/

namespace Cppio

variable {User Own Local : Type}

/-- The descriptor of a `send`. -/
def Syscall.sendsOn : Syscall → Option SocketT
  | .send sock _ _ => some sock
  | _ => none

/-- The descriptor of a `recv`. -/
def Syscall.receivesOn : Syscall → Option SocketT
  | .recv sock _ _ => some sock
  | _ => none

/-- The system call of an occurrence is one of these, if it is one. -/
def Occurrence.Only (allowed : Syscall → Prop) : Occurs User Own Local → Prop
  | .performed (.syscall call) _ => allowed call
  | _ => True

theorem Occurrence.Only.imp
    {allowed allowed' : Syscall → Prop} {occurrence : Occurs User Own Local}
    (only : occurrence.Only allowed) (weaker : ∀ call, allowed call → allowed' call) :
    occurrence.Only allowed' := by
  cases occurrence with
  | performed effect outcome =>
      cases effect with
      | syscall call => exact weaker call only
      | _ => trivial
  | _ => trivial

namespace Code

variable {allowed : Syscall → Prop} {code : Code User Own}

/-- Wherever the code goes, it makes only these system calls. -/
def Only (allowed : Syscall → Prop) : Code User Own → Prop
  | .user _ => False
  | .syscall call next => allowed call ∧ ∀ answer, (next answer).Only allowed
  | .overlapped next => next.Only allowed
  | .park _ next => next.Only allowed
  | .success next => ∀ success, (next success).Only allowed
  | .ret _ => True
  | .tcpRead sock _ _ => ∀ start length, allowed (.recv sock.socket start length)
  | .tcpReadExactly sock _ _ _ => ∀ start length, allowed (.recv sock.socket start length)
  | .tcpWrite sock _ _ _ => ∀ start length, allowed (.send sock.outSocket start length)
  | .udpRead sock buffer size => allowed (.recvfrom sock.socket buffer size)
  | .udpWrite writeSock endpoint buffer size =>
      allowed (.sendto writeSock buffer size endpoint) ∧ allowed (.close writeSock)

theorem only_ite
    {condition : Prop} [Decidable condition] {first second : Code User Own}
    (only : first.Only allowed) (only' : second.Only allowed) :
    (if condition then first else second).Only allowed := by
  split_ifs
  · exact only
  · exact only'

theorem only_fail (code : NetworkErrorCode) : (fail code : Code User Own).Only allowed := trivial

theorem only_received
    (operation : Operation SocketT) (again : Code User Own) (only : again.Only allowed)
    (result : Answer) : (received operation again result).Only allowed :=
  only_ite (only_fail _) (only_ite trivial fun _ => only_ite only (only_fail _))

theorem only_sentSome
    (sock : BaseSocket) (buffer size sent : Nat)
    (sends : ∀ start length, allowed (.send sock.outSocket start length)) (result : Answer) :
    (sentSome sock buffer size sent result : Code User Own).Only allowed :=
  only_ite (only_fail _) (only_ite (fun _ => only_ite sends (only_fail _)) sends)

theorem only_sentTo
    (writeSock : SocketT) (endpoint buffer size : Nat)
    (sends : allowed (.sendto writeSock buffer size endpoint)) (closes : allowed (.close writeSock))
    (result : Answer) :
    (sentTo writeSock endpoint buffer size result : Code User Own).Only allowed := by
  have closeAndFail : (Code.syscall (.close writeSock) fun _ => fail .closed :
      Code User Own).Only allowed := ⟨closes, fun _ => trivial⟩
  exact only_ite closeAndFail (only_ite ⟨closes, fun _ => trivial⟩
    fun _ => only_ite ⟨sends, closes⟩ closeAndFail)

/-- The system calls of the code, and of what awaits it. -/
def OnlyBelow
    (allowed : Syscall → Prop) (nexts : List (Result Own → Code User Own))
    (code : Code User Own) (_ : Unit) : Prop :=
  code.Only allowed ∧ ∀ next ∈ nexts, ∀ result, (next result).Only allowed

theorem Only.perform
    {program : User → UserInstr User Own Local} {effect : Effect User Local}
    {next : effect.Reply Own → Code User Own}
    (only : code.Only allowed) (performs : code.instr program = .perform effect next)
    (outcome : effect.Outcome Own) :
    Occurrence.Only allowed (.performed effect outcome) ∧
      (next (effect.reply outcome)).Only allowed := by
  cases code with
  | user here => exact only.elim
  | syscall call next =>
      cases performs
      exact ⟨only.1, only.2 _⟩
  | overlapped next =>
      cases performs
      exact ⟨trivial, only⟩
  | park steps after =>
      obtain ⟨quiet, rest, continues⟩ := park_performs performs outcome
      rw [continues]
      refine ⟨?_, only⟩
      cases effect with
      | syscall call => exact quiet.elim
      | _ => trivial
  | success next =>
      cases performs
      exact ⟨trivial, only _⟩
  | ret value => cases performs
  | tcpRead sock buffer size =>
      cases performs
      exact ⟨only _ _, only_received _ _ only _⟩
  | tcpReadExactly sock buffer size total =>
      rw [instr] at performs
      split_ifs at performs
  | tcpWrite sock buffer size sent =>
      rw [instr] at performs
      split_ifs at performs
      cases performs
      exact ⟨only _ _, only_sentSome sock buffer size sent only _⟩
  | udpRead sock buffer size =>
      cases performs
      exact ⟨only, only_received _ _ only _⟩
  | udpWrite writeSock endpoint buffer size =>
      cases performs
      exact ⟨only.1, only_sentTo writeSock endpoint buffer size only.1 only.2 _⟩

theorem keepsInvariant_only (program : User → UserInstr User Own Local) :
    KeepsInvariant (instr program) Effect.reply (fun _ _ => ())
      (fun _ _ => True) (fun _ => Occurrence.Only allowed) (OnlyBelow allowed) where
  ret := by
    rintro nexts next code value _ ⟨-, below⟩ -
    exact ⟨below next List.mem_cons_self value, fun next' present =>
      below next' (List.mem_cons_of_mem next present)⟩
  await := by
    rintro nexts code child next _ ⟨only, below⟩ awaits
    obtain ⟨here, rfl⟩ | ⟨sock, buffer, size, total, -, rfl, rfl, rfl⟩ := instr_eq_await awaits
    · exact only.elim
    · refine ⟨only, List.forall_mem_cons.mpr ⟨fun result => ?_, below⟩⟩
      cases result with
      | size read => exact only
      | _ => trivial
  perform := by
    rintro nexts code effect next outcome _ ⟨only, below⟩ performs -
    obtain ⟨here, later⟩ := only.perform performs outcome
    exact ⟨here, later, below⟩
  wait := by
    rintro nexts code next _ ⟨only, below⟩ waits -
    obtain ⟨here, rfl⟩ | ⟨rest, after, rfl, rfl⟩ := instr_eq_wait waits
    · exact only.elim
    · exact ⟨trivial, only, below⟩
  suspend := by
    rintro nexts code next _ ⟨only, below⟩ suspends -
    obtain ⟨here, rfl⟩ | rfl := instr_eq_suspend suspends
    · exact only.elim
    · exact ⟨trivial, only, below⟩

/-- On an execution the code makes only these system calls. -/
theorem Only.executes
    {partly : Prop} {program : User → UserInstr User Own Local}
    {events : List (Occurs User Own Local)} {last : Option (Result Own)}
    (only : code.Only allowed) (run : code.Advances partly program [] events last) :
    ∀ occurrence ∈ events, occurrence.Only allowed := by
  have guarantees := (keepsInvariant_only program).guarantees run
    (along_of_forall_mem (fun _ _ => trivial) ()) ⟨only, List.forall_mem_nil _⟩
  exact guarantees.along.forall_mem fun _ _ here => here

end Code

/-! ## Streams -/

namespace Start

/-- The descriptor that an operation sends a stream on. -/
def sendsOn : Start User → Option SocketT
  | .tcpWrite sock _ _ => some sock.outSocket
  | _ => none

/-- The descriptor that an operation receives a stream from. -/
def receivesOn : Start User → Option SocketT
  | .tcpRead sock _ _ => some sock.socket
  | .tcpReadExactly sock _ _ => some sock.socket
  | _ => none

/-- The operation sends and receives on the descriptors of its socket only. -/
def Streams (start : Start User) (call : Syscall) : Prop :=
  (∀ sock, call.sendsOn = some sock → start.sendsOn = some sock) ∧
    ∀ sock, call.receivesOn = some sock → start.receivesOn = some sock

theorem streams_of_none
    {start : Start User} {call : Syscall}
    (sends : call.sendsOn = none) (receives : call.receivesOn = none) : start.Streams call := by
  constructor
  · rw [sends]
    exact nofun
  · rw [receives]
    exact nofun

end Start

namespace Code

theorem only_returnSocket {allowed : Syscall → Prop} (dup : ∀ sock, allowed (.dup sock))
    (sock : SocketT) : (returnSocket sock : Code User Own).Only allowed :=
  ⟨dup sock, fun _ => trivial⟩

theorem only_connect
    {allowed : Syscall → Prop} (others : ∀ {call : Syscall}, call.sendsOn = none →
      call.receivesOn = none → allowed call) (endpoint : Address) :
    (connect endpoint : Code User Own).Only allowed := by
  have closeAndFail : ∀ sock : SocketT, (Code.syscall (.close sock) fun _ => fail .systemError :
      Code User Own).Only allowed := fun sock => ⟨others rfl rfl, fun _ => trivial⟩
  have connected : ∀ sock, (returnSocket sock : Code User Own).Only allowed :=
    only_returnSocket fun sock => others rfl rfl
  refine ⟨others rfl rfl, fun created => ?_⟩
  refine only_ite (only_fail _) ⟨others rfl rfl, fun set => ?_⟩
  refine only_ite (closeAndFail _) ⟨others rfl rfl, fun flags => ?_⟩
  refine only_ite (closeAndFail _) ⟨others rfl rfl, fun set => ?_⟩
  refine only_ite (closeAndFail _) ⟨others rfl rfl, fun result => ?_⟩
  refine only_ite (only_fail _) (only_ite (connected _) fun success => ?_)
  exact only_ite (connected _) (only_fail _)

/-- What an operation sends and receives on streams. -/
theorem only_streams {start : Start User} (operation : start.IsOperation) :
    (start.code : Code User Own).Only start.Streams := by
  have others : ∀ {call : Syscall}, call.sendsOn = none → call.receivesOn = none →
      start.Streams call := Start.streams_of_none
  cases start with
  | user here => exact operation.elim
  | connect endpoint => exact only_connect others endpoint
  | accept sock =>
      exact ⟨others rfl rfl, fun accepted =>
        only_ite (only_returnSocket (fun _ => others rfl rfl) _) (only_fail _)⟩
  | tcpRead sock buffer size => exact fun _ _ => ⟨nofun, fun _ same => same⟩
  | tcpReadExactly sock buffer size => exact fun _ _ => ⟨nofun, fun _ same => same⟩
  | tcpWrite sock buffer size => exact fun _ _ => ⟨fun _ same => same, nofun⟩
  | udpRead sock buffer size => exact others rfl rfl
  | udpWrite sock endpoint buffer size =>
      exact ⟨others rfl rfl, fun writeSock =>
        only_ite (only_fail _) ⟨others rfl rfl, others rfl rfl⟩⟩

end Code

end Cppio
