import Cppio.Reactor.Operations
import Mathlib.Tactic.SplitIfs

/-!
# Code that parks by operations

A coroutine, wherever it goes, suspends without being parked, or does the steps of one of
the operations and suspends.
-/

namespace Cppio

namespace Code

variable {User Own Local : Type}

/-- Where an operation goes on after it was parked, its `basic_overlapped` still there. -/
inductive Resumes : Operation SocketT → Code User Own → Prop
  | connect (sock : SocketT) :
      Resumes (.connect sock) (.success fun success =>
        if success then returnSocket sock else fail .systemError)
  | accept (sock : BaseSocket) :
      Resumes (.accept sock.socket) (.syscall (.accept sock.socket) fun accepted =>
        if accepted.result > -1 then returnSocket accepted.result else fail .systemError)
  | tcpRead (sock : BaseSocket) (buffer : Address) (size : Nat) :
      Resumes (.tcpRead sock.socket) (.success fun success =>
        if success then .tcpRead sock buffer size else fail .closed)
  | tcpWrite (sock : BaseSocket) (buffer : Address) (size sent : Nat) :
      Resumes (.tcpWrite sock.outSocket) (.success fun success =>
        if success then .tcpWrite sock buffer size sent else fail .closed)
  | udpRead (sock : BaseSocket) (buffer : Address) (size : Nat) :
      Resumes (.udpRead sock.socket) (.success fun success =>
        if success then .udpRead sock buffer size else fail .closed)
  | udpWrite (writeSock : SocketT) (endpoint buffer : Address) (size : Nat) :
      Resumes (.udpWrite writeSock) (.success fun success =>
        if success then .udpWrite writeSock endpoint buffer size
        else .syscall (.close writeSock) fun _ => fail .closed)
  | sleep (delay : Int) (here : User) : Resumes (.sleep delay) (.user here)

/-- Wherever the code goes, it parks as one of the operations does. -/
def Operates : Code User Own → Prop
  | .syscall _ next => ∀ answer, (next answer).Operates
  | .overlapped next => next.Operates
  | .park steps next => (∃ operation, steps = operation.parkSteps ∧ Resumes operation next) ∧
      next.Operates
  | .success next => ∀ success, (next success).Operates
  | _ => True

theorem operates_returnSocket (sock : SocketT) :
    (returnSocket sock : Code User Own).Operates := fun _ => trivial

theorem operates_ite
    {condition : Prop} [Decidable condition] {first second : Code User Own}
    (operates : first.Operates) (operates' : second.Operates) :
    (if condition then first else second).Operates := by
  split_ifs
  · exact operates
  · exact operates'

theorem operates_connect (endpoint : Address) : (connect endpoint : Code User Own).Operates := by
  intro created
  refine operates_ite trivial fun set => ?_
  refine operates_ite (fun _ => trivial) fun flags => ?_
  refine operates_ite (fun _ => trivial) fun set => ?_
  refine operates_ite (fun _ => trivial) fun result => ?_
  refine operates_ite trivial (operates_ite (operates_returnSocket _) ⟨⟨_, rfl, .connect _⟩, ?_⟩)
  exact fun success => operates_ite (operates_returnSocket _) trivial

theorem operates_accept (sock : BaseSocket) : (accept sock : Code User Own).Operates :=
  ⟨⟨_, rfl, .accept sock⟩, fun _ => operates_ite (operates_returnSocket _) trivial⟩

theorem operates_received
    {operation : Operation SocketT} {again : Code User Own} (operates : again.Operates)
    (resumes : Resumes operation (.success fun success => if success then again else fail .closed))
    (result : Answer) :
    (received operation again result).Operates := by
  refine operates_ite trivial (operates_ite trivial ⟨⟨operation, rfl, resumes⟩, ?_⟩)
  exact fun success => operates_ite operates trivial

theorem operates_readSome
    (sock : BaseSocket) (buffer : Address) (size totalRead : Nat) (result : Result Own) :
    (readSome sock buffer size totalRead result : Code User Own).Operates := by
  cases result with
  | _ => trivial

theorem operates_sentSome
    (sock : BaseSocket) (buffer : Address) (size sent : Nat) (result : Answer) :
    (sentSome sock buffer size sent result : Code User Own).Operates := by
  refine operates_ite trivial (operates_ite ⟨⟨_, rfl, .tcpWrite ..⟩, ?_⟩ trivial)
  exact fun success => operates_ite trivial trivial

theorem operates_sentTo
    (writeSock : SocketT) (endpoint buffer : Address) (size : Nat) (result : Answer) :
    (sentTo writeSock endpoint buffer size result : Code User Own).Operates := by
  refine operates_ite (fun _ => trivial)
    (operates_ite (fun _ => trivial) ⟨⟨_, rfl, .udpWrite ..⟩, ?_⟩)
  exact fun success => operates_ite trivial fun _ => trivial

theorem operates_code (start : Start User) : (start.code : Code User Own).Operates := by
  cases start with
  | connect endpoint => exact operates_connect endpoint
  | accept sock => exact operates_accept sock
  | udpWrite sock endpoint buffer size => exact fun writeSock => operates_ite trivial trivial
  | _ => trivial

/-- A step that leaves alone how the task is parked, to code that parks by operations. -/
inductive Operating :
    Instr (Code User Own) (Effect User Local) (Result Own) (Effect.Reply Own) → Prop
  | perform {effect : Effect User Local} {next : effect.Reply Own → Code User Own}
      (calm : effect.isArm = false) (operates : ∀ reply, (next reply).Operates) :
      Operating (.perform effect next)
  | suspend {next : Code User Own} (operates : next.Operates) : Operating (.suspend next)
  | await {child : Code User Own} {next : Result Own → Code User Own}
      (operates : child.Operates) (operatesNext : ∀ result, (next result).Operates) :
      Operating (.await child next)
  | ret {value : Result Own} : Operating (.ret value)

theorem operating_or_park
    (program : User → UserInstr User Own Local) {code : Code User Own}
    (operates : code.Operates) :
    Operating (code.instr program) ∨
      ∃ (operation : Operation SocketT) (next : Code User Own),
        code.instr program = parkInstr next operation.parkSteps ∧ Resumes operation next ∧
          next.Operates := by
  cases code with
  | user here =>
      rw [Code.instr]
      cases program here with
      | perform effect next => exact Or.inl (.perform rfl fun _ => trivial)
      | spawn start next => exact Or.inl (.perform rfl fun _ => trivial)
      | await child next => exact Or.inl (.await (operates_code child) fun _ => trivial)
      | sleep delay next => exact Or.inr ⟨.sleep delay, .user next, rfl, .sleep delay next, trivial⟩
      | yield next => exact Or.inl (.suspend trivial)
      | ret value => exact Or.inl .ret
  | syscall call next => exact Or.inl (.perform rfl operates)
  | overlapped next => exact Or.inl (.perform rfl fun _ => operates)
  | park steps next =>
      obtain ⟨⟨operation, rfl, resumes⟩, operatesNext⟩ := operates
      exact Or.inr ⟨operation, next, rfl, resumes, operatesNext⟩
  | success next => exact Or.inl (.perform rfl operates)
  | ret value => exact Or.inl .ret
  | tcpRead sock buffer size =>
      have again : (Code.tcpRead sock buffer size : Code User Own).Operates := trivial
      exact Or.inl (.perform rfl (operates_received again (.tcpRead ..)))
  | tcpReadExactly sock buffer size totalRead =>
      rw [Code.instr]
      split_ifs
      · exact Or.inl (.await trivial (operates_readSome sock buffer size _))
      · exact Or.inl .ret
  | tcpWrite sock buffer size sent =>
      rw [Code.instr]
      split_ifs
      · exact Or.inl (.perform rfl (operates_sentSome sock buffer size sent))
      · exact Or.inl .ret
  | udpRead sock buffer size =>
      have again : (Code.udpRead sock buffer size : Code User Own).Operates := trivial
      exact Or.inl (.perform rfl (operates_received again (.udpRead ..)))
  | udpWrite writeSock endpoint buffer size =>
      exact Or.inl (.perform rfl (operates_sentTo writeSock endpoint buffer size))

end Code

end Cppio
