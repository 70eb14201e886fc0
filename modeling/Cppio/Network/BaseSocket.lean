import Cppio.Library.Machine
import Mathlib.Logic.Function.Basic
import Mathlib.Tactic.SplitIfs

/-!
# POSIX socket objects

A `base_socket` holds two descriptors: reads use `m_socket`, writes use
`m_out_socket`, a `dup` of it.  The module models the constructors, the
destructor and the move assignment of `base_socket`, through which `tcp_socket`
and `udp_socket` go, over a kernel table from descriptors to open file
descriptions, and runs any program of them.
-/

namespace Cppio

/-- `posix::socket_t`. -/
abbrev SocketT := Int

/-- `posix::socket_invalid_handle`. -/
def socketInvalidHandle : SocketT := -1

/-- The kernel's table of open descriptors.  Two descriptors of one open file
description read and write the same connection. -/
structure Kernel where
  description : SocketT → Option Nat
  invalid_closed : description socketInvalidHandle = none

namespace Kernel

/-- A new descriptor for an open file description; the number must be free. -/
def install (kernel : Kernel) (descriptor : SocketT) (connection : Nat) : Option Kernel :=
  if valid : descriptor ≠ socketInvalidHandle ∧ kernel.description descriptor = none then
    some
      { description := Function.update kernel.description descriptor (some connection)
        invalid_closed := by
          rw [Function.update_of_ne valid.1.symm]
          exact kernel.invalid_closed }
  else none

/-- `dup(descriptor)` succeeding with the number `result`. -/
def dup (kernel : Kernel) (descriptor result : SocketT) : Option Kernel :=
  (kernel.description descriptor).bind fun connection =>
    kernel.install result connection

/-- `close(descriptor)`. -/
def close (kernel : Kernel) (descriptor : SocketT) : Kernel where
  description := Function.update kernel.description descriptor none
  invalid_closed := by
    rw [Function.update_apply]
    split_ifs
    · rfl
    · exact kernel.invalid_closed

theorem install_eq_some
    {kernel next : Kernel} {descriptor : SocketT} {connection : Nat}
    (installed : kernel.install descriptor connection = some next) :
    descriptor ≠ socketInvalidHandle ∧ kernel.description descriptor = none ∧
      next.description =
        Function.update kernel.description descriptor (some connection) := by
  unfold install at installed
  split_ifs at installed with valid
  obtain rfl := Option.some.inj installed
  exact ⟨valid.1, valid.2, rfl⟩

theorem dup_eq_some
    {kernel next : Kernel} {descriptor result : SocketT}
    (duplicated : kernel.dup descriptor result = some next) :
    ∃ connection, kernel.description descriptor = some connection ∧
      kernel.install result connection = some next :=
  Option.bind_eq_some_iff.mp duplicated

end Kernel

/-- `base_socket`. -/
structure BaseSocket where
  socket : SocketT
  outSocket : SocketT
  deriving DecidableEq

namespace BaseSocket

/-- `base_socket::base_socket()`. -/
def default : BaseSocket :=
  ⟨socketInvalidHandle, socketInvalidHandle⟩

/-- `base_socket::base_socket(socket_t)`.  `dupResult` is the number `dup`
returns; `memory` is what the storage of `m_out_socket` held before, which the
constructor leaves there when the descriptor is invalid. -/
def ofDescriptor
    (kernel : Kernel) (sock dupResult memory : SocketT) : Option (BaseSocket × Kernel) :=
  if sock ≠ socketInvalidHandle then
    (kernel.dup sock dupResult).map fun next => (⟨sock, dupResult⟩, next)
  else some (⟨sock, memory⟩, kernel)

/-- `base_socket::base_socket(base_socket&&)`: the new object and what is left
of `rhs`. -/
def moveConstruct (rhs : BaseSocket) : BaseSocket × BaseSocket :=
  (⟨rhs.socket, rhs.outSocket⟩, ⟨socketInvalidHandle, socketInvalidHandle⟩)

/-- `base_socket::operator=(base_socket&&)`: both sides afterwards. -/
def moveAssign (lhs rhs : BaseSocket) : BaseSocket × BaseSocket :=
  ({ lhs with socket := rhs.socket }, { rhs with socket := lhs.socket })

/-- `base_socket::~base_socket()`. -/
def destroy (sock : BaseSocket) (kernel : Kernel) : Kernel :=
  let kernel :=
    if sock.outSocket ≠ socketInvalidHandle then kernel.close sock.outSocket else kernel
  if sock.socket ≠ socketInvalidHandle then kernel.close sock.socket else kernel

end BaseSocket

namespace TcpSocket

/-- `tcp_socket::tcp_socket(socket_t)`. -/
def ofDescriptor := BaseSocket.ofDescriptor

/-- `tcp_socket::tcp_socket(tcp_socket&&)`. -/
def moveConstruct := BaseSocket.moveConstruct

/-- `tcp_socket::operator=(tcp_socket&&)`. -/
def moveAssign := BaseSocket.moveAssign

end TcpSocket

namespace UdpSocket

/-- `udp_socket::udp_socket(socket_t)`. -/
def ofDescriptor := BaseSocket.ofDescriptor

/-- `udp_socket::udp_socket(udp_socket&&)`. -/
def moveConstruct := BaseSocket.moveConstruct

/-- `udp_socket::operator=(udp_socket&&)`. -/
def moveAssign := BaseSocket.moveAssign

end UdpSocket

/-- The class whose member a program calls. -/
inductive SocketClass
  | baseSocket
  | tcpSocket
  | udpSocket
  deriving DecidableEq

namespace SocketClass

def ofDescriptor :
    SocketClass → Kernel → SocketT → SocketT → SocketT → Option (BaseSocket × Kernel)
  | .baseSocket => BaseSocket.ofDescriptor
  | .tcpSocket => TcpSocket.ofDescriptor
  | .udpSocket => UdpSocket.ofDescriptor

def moveConstruct : SocketClass → BaseSocket → BaseSocket × BaseSocket
  | .baseSocket => BaseSocket.moveConstruct
  | .tcpSocket => TcpSocket.moveConstruct
  | .udpSocket => UdpSocket.moveConstruct

def moveAssign : SocketClass → BaseSocket → BaseSocket → BaseSocket × BaseSocket
  | .baseSocket => BaseSocket.moveAssign
  | .tcpSocket => TcpSocket.moveAssign
  | .udpSocket => UdpSocket.moveAssign

/-- `udp_socket` deletes its default constructor. -/
def default : SocketClass → Option BaseSocket
  | .baseSocket => some BaseSocket.default
  | .tcpSocket => some BaseSocket.default
  | .udpSocket => none

@[simp] theorem ofDescriptor_eq (cls : SocketClass) :
    cls.ofDescriptor = BaseSocket.ofDescriptor := by
  cases cls <;> rfl

@[simp] theorem moveConstruct_eq (cls : SocketClass) :
    cls.moveConstruct = BaseSocket.moveConstruct := by
  cases cls <;> rfl

@[simp] theorem moveAssign_eq (cls : SocketClass) :
    cls.moveAssign = BaseSocket.moveAssign := by
  cases cls <;> rfl

theorem default_eq_some {cls : SocketClass} {sock : BaseSocket}
    (constructed : cls.default = some sock) :
    sock = BaseSocket.default := by
  cases cls <;> simp_all [default]

end SocketClass

/-- A program's objects, the descriptors it owns outside of them, and the
kernel's table. -/
structure SocketProgram where
  kernel : Kernel
  owned : SocketT → Bool
  objects : Nat → Option BaseSocket

/-- What a program does next.  Objects are named by numbers. -/
inductive SocketAction
  /-- `socket` or `accept4` gives the program a descriptor. -/
  | acquire (descriptor : SocketT) (connection : Nat)
  /-- The program closes a descriptor that it owns itself. -/
  | release (descriptor : SocketT)
  | default (cls : SocketClass) (name : Nat)
  | construct (cls : SocketClass) (name : Nat) (sock dupResult memory : SocketT)
  | moveConstruct (cls : SocketClass) (name rhs : Nat)
  | moveAssign (cls : SocketClass) (lhs rhs : Nat)
  | destroy (name : Nat)
  deriving DecidableEq

namespace SocketProgram

/-- No object and no open descriptor. -/
def initial : SocketProgram where
  kernel := ⟨fun _ => none, rfl⟩
  owned := fun _ => false
  objects := fun _ => none

/-- One action.  A constructor needs a name that is not in use; a valid
descriptor given to a constructor is one the program owns, and the object takes
it over. -/
def step (program : SocketProgram) : SocketAction → Option SocketProgram
  | .acquire descriptor connection =>
      (program.kernel.install descriptor connection).map fun kernel =>
        { program with
          kernel := kernel
          owned := Function.update program.owned descriptor true }
  | .release descriptor =>
      if program.owned descriptor then
        some
          { program with
            kernel := program.kernel.close descriptor
            owned := Function.update program.owned descriptor false }
      else none
  | .default cls name =>
      match program.objects name, cls.default with
      | none, some sock =>
          some { program with objects := Function.update program.objects name (some sock) }
      | _, _ => none
  | .construct cls name sock dupResult memory =>
      if program.objects name = none ∧
          (sock = socketInvalidHandle ∨ program.owned sock) then
        (cls.ofDescriptor program.kernel sock dupResult memory).map fun built =>
          { kernel := built.2
            owned := Function.update program.owned sock false
            objects := Function.update program.objects name (some built.1) }
      else none
  | .moveConstruct cls name rhs =>
      match program.objects name, program.objects rhs with
      | none, some source =>
          let (built, left) := cls.moveConstruct source
          some
            { program with
              objects := Function.update
                (Function.update program.objects rhs (some left)) name (some built) }
      | _, _ => none
  | .moveAssign cls lhs rhs =>
      match program.objects lhs, program.objects rhs with
      | some target, some source =>
          let (assigned, left) := cls.moveAssign target source
          some
            { program with
              objects := Function.update
                (Function.update program.objects rhs (some left)) lhs (some assigned) }
      | _, _ => none
  | .destroy name =>
      (program.objects name).map fun sock =>
        { program with
          kernel := sock.destroy program.kernel
          objects := Function.update program.objects name none }

end SocketProgram

end Cppio
