import Cppio.Network.BaseSocket
import Mathlib.Tactic.Tauto

/-!
# Which programs keep the two descriptors of a socket together

Starting from no objects, every object of a program reads and writes one
connection exactly as long as no object is constructed from the invalid
descriptor over memory that holds something else, and no object is assigned
from one that denotes another connection: the move assignment exchanges
`m_socket` and leaves `m_out_socket` where it was.
-/

namespace Cppio

/-- Both descriptors are invalid, or the second is a `dup` of the first. -/
def Paired (kernel : Kernel) (sock : BaseSocket) : Prop :=
  (sock.socket = socketInvalidHandle ∧ sock.outSocket = socketInvalidHandle) ∨
    (sock.socket ≠ socketInvalidHandle ∧ sock.outSocket ≠ sock.socket ∧
      ∃ connection, kernel.description sock.socket = some connection ∧
        kernel.description sock.outSocket = some connection)

/-- The object holds a descriptor. -/
def Holds (sock : BaseSocket) (descriptor : SocketT) : Prop :=
  descriptor ≠ socketInvalidHandle ∧
    (descriptor = sock.socket ∨ descriptor = sock.outSocket)

/-- The descriptors of a paired object are open. -/
theorem Paired.isOpen
    {kernel : Kernel} {sock : BaseSocket} {descriptor : SocketT}
    (paired : Paired kernel sock)
    (held : Holds sock descriptor) :
    kernel.description descriptor ≠ none := by
  obtain ⟨valid, isSocket | isOut⟩ := held <;>
    rcases paired with ⟨noSocket, noOut⟩ | ⟨-, -, connection, openSocket, openOut⟩ <;>
    simp_all

/-- A paired object depends on the kernel only through what it holds. -/
theorem Paired.frame
    {kernel next : Kernel} {sock : BaseSocket}
    (paired : Paired kernel sock)
    (same : ∀ descriptor, Holds sock descriptor →
      next.description descriptor = kernel.description descriptor) :
    Paired next sock := by
  rcases paired with invalid | ⟨valid, different, connection, openSocket, openOut⟩
  · exact Or.inl invalid
  · have outValid : sock.outSocket ≠ socketInvalidHandle := by
      intro invalid
      rw [invalid, kernel.invalid_closed] at openOut
      cases openOut
    refine Or.inr ⟨valid, different, connection, ?_, ?_⟩
    · rw [same _ ⟨valid, Or.inl rfl⟩, openSocket]
    · rw [same _ ⟨outValid, Or.inr rfl⟩, openOut]

theorem paired_default (kernel : Kernel) : Paired kernel BaseSocket.default :=
  Or.inl ⟨rfl, rfl⟩

theorem not_holds_default (descriptor : SocketT) :
    ¬Holds BaseSocket.default descriptor := by
  rintro ⟨valid, equal | equal⟩ <;> exact valid equal

/-- Every object is paired and no descriptor has two holders. -/
structure Separate (program : SocketProgram) : Prop where
  paired : ∀ name sock, program.objects name = some sock →
    Paired program.kernel sock
  disjoint : ∀ name other sock sock' descriptor,
    program.objects name = some sock → program.objects other = some sock' →
      Holds sock descriptor → Holds sock' descriptor → name = other
  owned : ∀ descriptor, program.owned descriptor = true →
    program.kernel.description descriptor ≠ none ∧
      ∀ name sock, program.objects name = some sock → ¬Holds sock descriptor

theorem separate_initial : Separate SocketProgram.initial where
  paired := by simp [SocketProgram.initial]
  disjoint := by simp [SocketProgram.initial]
  owned := by simp [SocketProgram.initial]

/-- A kernel that keeps every descriptor an object or the program holds keeps
the program separate. -/
theorem Separate.frame
    {program : SocketProgram} {kernel : Kernel}
    (separate : Separate program)
    (same : ∀ name sock descriptor, program.objects name = some sock →
      Holds sock descriptor →
        kernel.description descriptor = program.kernel.description descriptor)
    (sameOwned : ∀ descriptor, program.owned descriptor = true →
      kernel.description descriptor = program.kernel.description descriptor) :
    Separate { program with kernel := kernel } where
  paired name sock present :=
    (separate.paired name sock present).frame fun descriptor held =>
      same name sock descriptor present held
  disjoint := separate.disjoint
  owned descriptor isOwned := by
    obtain ⟨isOpen, free⟩ := separate.owned descriptor isOwned
    exact ⟨by rw [sameOwned descriptor isOwned]; exact isOpen, free⟩

/-- An object that holds only descriptors nobody else holds can take the place
of any object. -/
theorem Separate.put
    {program : SocketProgram}
    (separate : Separate program)
    (name : Nat)
    {sock : BaseSocket}
    (paired : Paired program.kernel sock)
    (fresh : ∀ other sock' descriptor, other ≠ name →
      program.objects other = some sock' → Holds sock descriptor →
        ¬Holds sock' descriptor)
    (notOwned : ∀ descriptor, Holds sock descriptor →
      program.owned descriptor = false) :
    Separate { program with
      objects := Function.update program.objects name (some sock) } where
  paired other sock' present := by
    simp only [Function.update_apply] at present
    split_ifs at present
    · obtain rfl := Option.some.inj present
      exact paired
    · exact separate.paired other sock' present
  disjoint other third sock' sock'' descriptor present present' held held' := by
    simp only [Function.update_apply] at present present'
    split_ifs at present present' with here here' here'
    · exact here.trans here'.symm
    · obtain rfl := Option.some.inj present
      exact absurd held' (fresh third sock'' descriptor here' present' held)
    · obtain rfl := Option.some.inj present'
      exact absurd held (fresh other sock' descriptor here present held')
    · exact separate.disjoint other third sock' sock'' descriptor present present' held held'
  owned descriptor isOwned := by
    obtain ⟨isOpen, free⟩ := separate.owned descriptor isOwned
    refine ⟨isOpen, fun other sock' present held => ?_⟩
    simp only [Function.update_apply] at present
    split_ifs at present
    · obtain rfl := Option.some.inj present
      rw [notOwned descriptor held] at isOwned
      cases isOwned
    · exact free other sock' present held

theorem Separate.remove
    {program : SocketProgram}
    (separate : Separate program)
    (name : Nat) :
    Separate { program with objects := Function.update program.objects name none } := by
  have old : ∀ other sock,
      Function.update program.objects name none other = some sock →
        program.objects other = some sock := by
    intro other sock present
    simp only [Function.update_apply] at present
    split_ifs at present
    exact present
  exact
    { paired := fun other sock present => separate.paired other sock (old other sock present)
      disjoint := fun other third sock sock' descriptor present present' =>
        separate.disjoint other third sock sock' descriptor
          (old other sock present) (old third sock' present')
      owned := fun descriptor isOwned =>
        ⟨(separate.owned descriptor isOwned).1, fun other sock present =>
          (separate.owned descriptor isOwned).2 other sock (old other sock present)⟩ }

/-- The program may own an open descriptor that no object holds. -/
theorem Separate.own
    {program : SocketProgram} {descriptor : SocketT}
    (separate : Separate program)
    (isOpen : program.kernel.description descriptor ≠ none)
    (free : ∀ name sock, program.objects name = some sock → ¬Holds sock descriptor) :
    Separate { program with owned := Function.update program.owned descriptor true } where
  paired := separate.paired
  disjoint := separate.disjoint
  owned other isOwned := by
    by_cases same : other = descriptor
    · subst other
      exact ⟨isOpen, free⟩
    · simp only [Function.update_of_ne same] at isOwned
      exact separate.owned other isOwned

theorem Separate.disown
    {program : SocketProgram}
    (separate : Separate program)
    (descriptor : SocketT) :
    Separate { program with owned := Function.update program.owned descriptor false } where
  paired := separate.paired
  disjoint := separate.disjoint
  owned other isOwned := by
    by_cases same : other = descriptor
    · simp [same] at isOwned
    · simp only [Function.update_of_ne same] at isOwned
      exact separate.owned other isOwned

/-- Installing a free number changes nothing that is held. -/
theorem Separate.install
    {program : SocketProgram} {kernel : Kernel} {descriptor : SocketT} {connection : Nat}
    (separate : Separate program)
    (installed : program.kernel.install descriptor connection = some kernel) :
    Separate { program with kernel := kernel } := by
  obtain ⟨-, free, table⟩ := Kernel.install_eq_some installed
  have other : ∀ held, program.kernel.description held ≠ none →
      kernel.description held = program.kernel.description held := by
    intro held isOpen
    rw [table, Function.update_of_ne]
    rintro rfl
    exact isOpen free
  exact separate.frame
    (fun name sock held present holds =>
      other held ((separate.paired name sock present).isOpen holds))
    (fun held isOwned => other held (separate.owned held isOwned).1)

/-- The destructor closes what the object holds and nothing else. -/
theorem description_destroy
    (sock : BaseSocket) (kernel : Kernel) {descriptor : SocketT}
    (free : ¬Holds sock descriptor) :
    (sock.destroy kernel).description descriptor = kernel.description descriptor := by
  unfold Holds at free
  unfold BaseSocket.destroy Kernel.close
  split_ifs <;> simp only [Function.update_apply] <;> split_ifs <;> simp_all

/-- The steps that keep every object on one connection. -/
def KeepsPairs (program : SocketProgram) : SocketAction → Prop
  | .construct _ _ sock _ memory =>
      sock ≠ socketInvalidHandle ∨ memory = socketInvalidHandle
  | .moveAssign _ lhs rhs =>
      ∀ target source, program.objects lhs = some target →
        program.objects rhs = some source →
          program.kernel.description target.socket =
            program.kernel.description source.socket
  | _ => True

/-- Constructing from a valid descriptor pairs it with its `dup`. -/
theorem Separate.construct
    {program : SocketProgram} {kernel : Kernel} {name : Nat} {sock dupResult : SocketT}
    (separate : Separate program)
    (isOwned : program.owned sock = true)
    (duplicated : program.kernel.dup sock dupResult = some kernel) :
    Separate
      { kernel := kernel
        owned := Function.update program.owned sock false
        objects := Function.update program.objects name (some ⟨sock, dupResult⟩) } := by
  obtain ⟨connection, openSocket, installed⟩ := Kernel.dup_eq_some duplicated
  obtain ⟨outValid, outFree, table⟩ := Kernel.install_eq_some installed
  have sockValid : sock ≠ socketInvalidHandle := by
    rintro rfl
    rw [program.kernel.invalid_closed] at openSocket
    cases openSocket
  have different : dupResult ≠ sock := by
    rintro rfl
    rw [outFree] at openSocket
    cases openSocket
  refine ((separate.disown sock).install installed).put name ?_ ?_ ?_
  · refine Or.inr ⟨sockValid, different, connection, ?_, ?_⟩
    · rw [table, Function.update_of_ne different.symm, openSocket]
    · rw [table, Function.update_self]
  · rintro other sock' descriptor - present ⟨valid, rfl | rfl⟩ held'
    · exact (separate.owned _ isOwned).2 other sock' present held'
    · exact (separate.paired other sock' present).isOpen held' outFree
  · rintro descriptor ⟨valid, rfl | rfl⟩
    · simp
    · change Function.update program.owned sock false descriptor = false
      rw [Function.update_of_ne different]
      by_contra owned
      exact (separate.owned _ (by simpa using owned)).1 outFree

/-- A move construction hands the descriptors over. -/
theorem Separate.moveConstruct
    {program : SocketProgram} {rhs : Nat} {source : BaseSocket}
    (separate : Separate program)
    (name : Nat)
    (present : program.objects rhs = some source) :
    Separate { program with
      objects := Function.update
        (Function.update program.objects rhs (some BaseSocket.default)) name (some source) } := by
  have emptied := separate.put rhs (paired_default program.kernel)
    (fun _ _ descriptor _ _ held => absurd held (not_holds_default descriptor))
    (fun descriptor held => absurd held (not_holds_default descriptor))
  refine emptied.put name (separate.paired rhs source present) ?_ ?_
  · intro other sock' descriptor _ presentOther held held'
    simp only [Function.update_apply] at presentOther
    split_ifs at presentOther with same
    · obtain rfl := Option.some.inj presentOther
      exact not_holds_default descriptor held'
    · exact same (separate.disjoint other rhs sock' source descriptor
        presentOther present held' held)
  · intro descriptor held
    by_contra owned
    exact (separate.owned descriptor (by simpa using owned)).2 rhs source present held

/-- What an object holds after an exchange, one of the two held before. -/
theorem Holds.exchange
    {target source : BaseSocket} {descriptor : SocketT}
    (held : Holds { target with socket := source.socket } descriptor) :
    Holds target descriptor ∨ Holds source descriptor := by
  obtain ⟨valid, isSocket | isOut⟩ := held
  · exact Or.inr ⟨valid, Or.inl isSocket⟩
  · exact Or.inl ⟨valid, Or.inr isOut⟩

/-- Exchanging keeps two objects apart. -/
theorem Paired.exchange_apart
    {kernel : Kernel} {target source : BaseSocket} {descriptor : SocketT}
    (pairedTarget : Paired kernel target)
    (pairedSource : Paired kernel source)
    (apart : ∀ descriptor, Holds target descriptor → ¬Holds source descriptor)
    (held : Holds { target with socket := source.socket } descriptor) :
    ¬Holds { source with socket := target.socket } descriptor := by
  rintro ⟨valid, isTargetSocket | isSourceOut⟩ <;>
    obtain ⟨-, isSourceSocket | isTargetOut⟩ := held
  · exact apart descriptor ⟨valid, Or.inl isTargetSocket⟩ ⟨valid, Or.inl isSourceSocket⟩
  · rcases pairedTarget with ⟨noSocket, -⟩ | ⟨-, different, -⟩
    · exact valid (isTargetSocket.trans noSocket)
    · exact different (isTargetOut.symm.trans isTargetSocket)
  · rcases pairedSource with ⟨noSocket, -⟩ | ⟨-, different, -⟩
    · exact valid (isSourceSocket.trans noSocket)
    · exact different (isSourceOut.symm.trans isSourceSocket)
  · exact apart descriptor ⟨valid, Or.inr isTargetOut⟩ ⟨valid, Or.inr isSourceOut⟩

/-- After an exchange with another object on the same connection, or between
objects without one, the target is still paired. -/
theorem Paired.exchange
    {kernel : Kernel} {target source : BaseSocket}
    (pairedTarget : Paired kernel target)
    (pairedSource : Paired kernel source)
    (apart : ∀ descriptor, Holds target descriptor → ¬Holds source descriptor)
    (same : kernel.description target.socket = kernel.description source.socket) :
    Paired kernel { target with socket := source.socket } := by
  rcases pairedTarget with
      ⟨noSocket, noOut⟩ | ⟨valid, different, connection, openSocket, openOut⟩ <;>
    rcases pairedSource with
      ⟨noSource, -⟩ | ⟨validSource, -, connection', openSource, -⟩
  · exact Or.inl ⟨noSource, noOut⟩
  · rw [noSocket, kernel.invalid_closed, openSource] at same
    cases same
  · rw [noSource, kernel.invalid_closed, openSocket] at same
    cases same
  · refine Or.inr ⟨validSource, fun equal => ?_, connection, ?_, openOut⟩
    · exact apart source.socket ⟨validSource, Or.inr equal.symm⟩
        ⟨validSource, Or.inl rfl⟩
    · exact same.symm.trans openSocket

/-- Two objects on one connection, or without one, may exchange `m_socket`. -/
theorem Separate.moveAssign
    {program : SocketProgram} {lhs rhs : Nat} {target source : BaseSocket}
    (separate : Separate program)
    (presentTarget : program.objects lhs = some target)
    (presentSource : program.objects rhs = some source)
    (same : program.kernel.description target.socket =
      program.kernel.description source.socket) :
    Separate { program with
      objects := Function.update
        (Function.update program.objects rhs
          (some { source with socket := target.socket })) lhs
        (some { target with socket := source.socket }) } := by
  by_cases self : lhs = rhs
  · subst rhs
    obtain rfl : target = source :=
      Option.some.inj (presentTarget.symm.trans presentSource)
    rw [Function.update_idem, ← presentTarget, Function.update_eq_self]
    exact separate
  have pairedTarget := separate.paired lhs target presentTarget
  have pairedSource := separate.paired rhs source presentSource
  have apart : ∀ descriptor, Holds target descriptor → ¬Holds source descriptor :=
    fun descriptor held held' =>
      self (separate.disjoint lhs rhs target source descriptor
        presentTarget presentSource held held')
  have unowned : ∀ descriptor, Holds target descriptor ∨ Holds source descriptor →
      program.owned descriptor = false := by
    intro descriptor held
    by_contra owned
    have free := (separate.owned descriptor (by simpa using owned)).2
    exact held.elim (free lhs target presentTarget) (free rhs source presentSource)
  have elsewhere : ∀ other sock' descriptor, other ≠ lhs → other ≠ rhs →
      program.objects other = some sock' →
        Holds target descriptor ∨ Holds source descriptor → ¬Holds sock' descriptor := by
    intro other sock' descriptor notLhs notRhs present held held'
    rcases held with held | held
    · exact notLhs (separate.disjoint other lhs sock' target descriptor
        present presentTarget held' held)
    · exact notRhs (separate.disjoint other rhs sock' source descriptor
        present presentSource held' held)
  -- the left side is emptied while the right side takes its descriptor
  have emptied := separate.put lhs (paired_default program.kernel)
    (fun _ _ descriptor _ _ held => absurd held (not_holds_default descriptor))
    (fun descriptor held => absurd held (not_holds_default descriptor))
  have exchanged := emptied.put rhs
    (pairedSource.exchange pairedTarget
      (fun descriptor held held' => apart descriptor held' held) same.symm)
    (by
      intro other sock' descriptor notRhs present held held'
      simp only [Function.update_apply] at present
      split_ifs at present with isLhs
      · obtain rfl := Option.some.inj present
        exact not_holds_default descriptor held'
      · exact elsewhere other sock' descriptor isLhs notRhs present held.exchange.symm held')
    (fun descriptor held => unowned descriptor held.exchange.symm)
  have assigned := exchanged.put lhs
    (pairedTarget.exchange pairedSource apart same)
    (by
      intro other sock' descriptor notLhs present held held'
      simp only [Function.update_apply, if_neg notLhs] at present
      split_ifs at present with isRhs
      · obtain rfl := Option.some.inj present
        exact pairedTarget.exchange_apart pairedSource apart held held'
      · exact elsewhere other sock' descriptor notLhs isRhs present held.exchange held')
    (fun descriptor held => unowned descriptor held.exchange)
  rw [Function.update_comm self, Function.update_idem, Function.update_comm (Ne.symm self)]
    at assigned
  exact assigned

/-- Destroying an object closes its descriptors and leaves the others alone. -/
theorem Separate.destroy
    {program : SocketProgram} {name : Nat} {sock : BaseSocket}
    (separate : Separate program)
    (present : program.objects name = some sock) :
    Separate { program with
      kernel := sock.destroy program.kernel
      objects := Function.update program.objects name none } := by
  refine (separate.remove name).frame ?_ ?_
  · intro other sock' descriptor presentOther held
    apply description_destroy
    intro held'
    simp only [Function.update_apply] at presentOther
    split_ifs at presentOther with same
    exact same (separate.disjoint other name sock' sock descriptor
      presentOther present held held')
  · intro descriptor isOwned
    apply description_destroy
    exact (separate.owned descriptor isOwned).2 name sock present

/-- The descriptors of the program's own are free to close. -/
theorem Separate.release
    {program : SocketProgram} {descriptor : SocketT}
    (separate : Separate program)
    (isOwned : program.owned descriptor = true) :
    Separate { program with
      kernel := program.kernel.close descriptor
      owned := Function.update program.owned descriptor false } := by
  have free := (separate.owned descriptor isOwned).2
  refine (separate.disown descriptor).frame ?_ ?_
  · intro name sock held present holds
    have different : held ≠ descriptor := by
      rintro rfl
      exact free name sock present holds
    simp [Kernel.close, Function.update_of_ne different]
  · intro other owned
    have different : other ≠ descriptor := by
      rintro rfl
      simp at owned
    simp [Kernel.close, Function.update_of_ne different]

/-- One action that meets the guard keeps the program separate. -/
theorem Separate.step
    {program next : SocketProgram} {action : SocketAction}
    (separate : Separate program)
    (keeps : KeepsPairs program action)
    (stepped : program.step action = some next) :
    Separate next := by
  cases action with
  | acquire descriptor connection =>
      obtain ⟨kernel, installed, rfl⟩ := Option.map_eq_some_iff.mp stepped
      obtain ⟨-, free, table⟩ := Kernel.install_eq_some installed
      apply (separate.install installed).own (by simp [table])
      intro name sock present held
      exact (separate.paired name sock present).isOpen held free
  | release descriptor =>
      simp only [SocketProgram.step, Option.ite_none_right_eq_some, Option.some.injEq]
        at stepped
      obtain ⟨isOwned, rfl⟩ := stepped
      exact separate.release isOwned
  | default cls name =>
      simp only [SocketProgram.step] at stepped
      split at stepped
      · rename_i sock unused constructed
        obtain rfl := Option.some.inj stepped
        obtain rfl := SocketClass.default_eq_some constructed
        exact separate.put name (paired_default program.kernel)
          (fun _ _ descriptor _ _ held => absurd held (not_holds_default descriptor))
          (fun descriptor held => absurd held (not_holds_default descriptor))
      · cases stepped
  | construct cls name sock dupResult memory =>
      simp only [SocketProgram.step, SocketClass.ofDescriptor_eq] at stepped
      split_ifs at stepped with legal
      obtain ⟨built, constructed, rfl⟩ := Option.map_eq_some_iff.mp stepped
      unfold BaseSocket.ofDescriptor at constructed
      split_ifs at constructed with valid
      · obtain ⟨kernel, duplicated, rfl⟩ := Option.map_eq_some_iff.mp constructed
        exact separate.construct (legal.2.resolve_left valid) duplicated
      · obtain rfl := Option.some.inj constructed
        have isInvalid : sock = socketInvalidHandle := not_not.mp valid
        have memoryInvalid : memory = socketInvalidHandle := keeps.resolve_left valid
        subst isInvalid memoryInvalid
        exact (separate.disown _).put name (paired_default program.kernel)
          (fun _ _ descriptor _ _ held => absurd held (not_holds_default descriptor))
          (fun descriptor held => absurd held (not_holds_default descriptor))
  | moveConstruct cls name rhs =>
      simp only [SocketProgram.step, SocketClass.moveConstruct_eq] at stepped
      split at stepped
      · rename_i source unused present
        obtain rfl := Option.some.inj stepped
        exact separate.moveConstruct name present
      · cases stepped
  | moveAssign cls lhs rhs =>
      simp only [SocketProgram.step, SocketClass.moveAssign_eq] at stepped
      split at stepped
      · rename_i target source presentTarget presentSource
        obtain rfl := Option.some.inj stepped
        exact separate.moveAssign presentTarget presentSource
          (keeps target source presentTarget presentSource)
      · cases stepped
  | destroy name =>
      obtain ⟨sock, present, rfl⟩ := Option.map_eq_some_iff.mp stepped
      exact separate.destroy present

/-- Every live object has both descriptors invalid or one a `dup` of the other. -/
def SameConnection (program : SocketProgram) : Prop :=
  ∀ name sock, program.objects name = some sock → Paired program.kernel sock

/-- An exchange that leaves the target paired was between two objects on one
connection, or without one. -/
theorem Paired.of_exchange
    {kernel : Kernel} {target source : BaseSocket}
    (pairedTarget : Paired kernel target)
    (pairedAssigned : Paired kernel { target with socket := source.socket }) :
    kernel.description target.socket = kernel.description source.socket := by
  rcases pairedTarget with
      ⟨noSocket, noOut⟩ | ⟨valid, different, connection, openSocket, openOut⟩ <;>
    rcases pairedAssigned with
      ⟨noSource, noOut'⟩ | ⟨validSource, -, connection', openSource, openOut'⟩ <;>
    dsimp only at *
  · rw [noSocket, noSource]
  · rw [noOut, kernel.invalid_closed] at openOut'
    cases openOut'
  · rw [noOut', kernel.invalid_closed] at openOut
    cases openOut
  · rw [openSocket, openSource, ← openOut, ← openOut']

/-- A step into a state where every object is on one connection met the guard. -/
theorem keepsPairs_of_step
    {program next : SocketProgram} {action : SocketAction}
    (separate : Separate program)
    (stepped : program.step action = some next)
    (same : SameConnection next) :
    KeepsPairs program action := by
  cases action with
  | construct cls name sock dupResult memory =>
      simp only [SocketProgram.step, SocketClass.ofDescriptor_eq] at stepped
      split_ifs at stepped with legal
      obtain ⟨built, constructed, rfl⟩ := Option.map_eq_some_iff.mp stepped
      by_cases valid : sock = socketInvalidHandle
      · right
        simp only [BaseSocket.ofDescriptor, valid, ne_eq, not_true_eq_false, if_false,
          Option.some.injEq] at constructed
        obtain rfl := constructed
        have paired := same name ⟨socketInvalidHandle, memory⟩ (by simp)
        rcases paired with ⟨-, noOut⟩ | ⟨validSocket, -⟩
        · exact noOut
        · exact absurd rfl validSocket
      · exact Or.inl valid
  | moveAssign cls lhs rhs =>
      intro target source presentTarget presentSource
      simp only [SocketProgram.step, SocketClass.moveAssign_eq, presentTarget, presentSource,
        Option.some.injEq] at stepped
      obtain rfl := stepped
      exact (separate.paired lhs target presentTarget).of_exchange (same lhs _ (by
        simp [BaseSocket.moveAssign]))
  | acquire | release | default | moveConstruct | destroy => trivial

/-- Read side and write side of every object belong to one connection in every
state of a run exactly when every construction is from a valid descriptor, or
finds the invalid one in memory, and every move assignment is between objects
that denote the same connection or none, as a self-assignment is. -/
theorem sameConnection_iff (actions : List SocketAction) :
    Machine.AllStates SocketProgram.step SameConnection .initial actions ↔
      Machine.AllSteps SocketProgram.step KeepsPairs .initial actions := by
  have sound : ∀ program, Separate program → SameConnection program :=
    fun program separate => separate.paired
  have preserved : ∀ program action next, Separate program →
      KeepsPairs program action → program.step action = some next → Separate next :=
    fun program action next separate keeps stepped => separate.step keeps stepped
  have complete : ∀ program action next, Separate program →
      program.step action = some next → SameConnection next → KeepsPairs program action :=
    fun program action next separate stepped same => keepsPairs_of_step separate stepped same
  exact Machine.allStates_iff_allSteps sound preserved complete separate_initial actions

/-- Assigning onto a connected socket: the object then reads from the second
connection and writes to the first. -/
theorem not_sameConnection_moveAssign :
    ¬Machine.AllStates SocketProgram.step SameConnection .initial
      [.acquire 3 100, .construct .tcpSocket 0 3 4 0,
        .acquire 5 200, .construct .tcpSocket 1 5 6 0, .moveAssign .tcpSocket 0 1] := by
  intro allPaired
  have reached := allPaired _ [] _ (List.append_nil _).symm rfl 0 _ rfl
  rcases reached with ⟨invalid, -⟩ | ⟨-, -, connection, openSocket, openOut⟩
  · exact absurd invalid (by decide)
  · exact absurd (openSocket.trans openOut.symm) (by decide)

end Cppio
