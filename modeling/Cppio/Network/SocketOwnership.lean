import Cppio.Library.Ledger
import Cppio.Network.BaseSocket

/-!
# Descriptors are closed exactly once

Programs of constructions, moves, move assignments and destructions of socket
objects, where `dup` may fail.  Every opening of a descriptor gets a number of
its own, so that a descriptor that the kernel hands out again is told apart from
what it was before, and every call of `close` is recorded with the opening that
it ends.  The descriptors in the objects, by object and side, are the slots of a
ledger: a move construction and a move assignment exchange slots, and the
destructor closes two of them.  What the ledger opens is what the constructed
objects hold.
-/

namespace Cppio

/-! ## Programs -/

namespace TcpListener

/-- `tcp_listener::tcp_listener(tcp_listener&&)`, which is defaulted. -/
def moveConstruct := TcpSocket.moveConstruct

/-- `tcp_listener::operator=(tcp_listener&&)`, which is defaulted. -/
def moveAssign := TcpSocket.moveAssign

end TcpListener

/-- The class whose member a program calls, listeners included. -/
inductive SocketKind
  | socket (cls : SocketClass)
  | tcpListener
  deriving DecidableEq

namespace SocketKind

/-- `tcp_listener` has no default constructor. -/
def default : SocketKind → Option BaseSocket
  | .socket cls => cls.default
  | .tcpListener => none

def moveConstruct : SocketKind → BaseSocket → BaseSocket × BaseSocket
  | .socket cls => cls.moveConstruct
  | .tcpListener => TcpListener.moveConstruct

def moveAssign : SocketKind → BaseSocket → BaseSocket → BaseSocket × BaseSocket
  | .socket cls => cls.moveAssign
  | .tcpListener => TcpListener.moveAssign

@[simp] theorem moveConstruct_eq (kind : SocketKind) :
    kind.moveConstruct = BaseSocket.moveConstruct := by
  cases kind with
  | socket cls => exact cls.moveConstruct_eq
  | tcpListener => rfl

@[simp] theorem moveAssign_eq (kind : SocketKind) :
    kind.moveAssign = BaseSocket.moveAssign := by
  cases kind with
  | socket cls => exact cls.moveAssign_eq
  | tcpListener => rfl

theorem default_eq_some {kind : SocketKind} {sock : BaseSocket}
    (constructed : kind.default = some sock) :
    sock = BaseSocket.default := by
  cases kind with
  | socket cls => exact SocketClass.default_eq_some constructed
  | tcpListener => cases constructed

end SocketKind

/-- A program's objects, the descriptors it owns outside of them, and the
descriptors that are open, each with the number of its opening. -/
structure SocketLife where
  kernel : Kernel
  openings : Nat
  owned : SocketT → Bool
  objects : Nat → Option BaseSocket
  /-- The openings that objects took over or made by `dup`. -/
  adopted : List Nat
  /-- What each call of `close` ended, if anything. -/
  closes : List (Option Nat)

/-- What a program does next.  Objects are named by numbers. -/
inductive LifeAction
  /-- `socket` or `accept4` gives the program a descriptor. -/
  | acquire (descriptor : SocketT)
  | default (kind : SocketKind) (name : Nat)
  /-- From a descriptor of the program's own; `dup` fails or returns a number. -/
  | construct (kind : SocketKind) (name : Nat) (sock : SocketT) (dupResult : Option SocketT)
  | moveConstruct (kind : SocketKind) (name rhs : Nat)
  | moveAssign (kind : SocketKind) (lhs rhs : Nat)
  | destroy (name : Nat)
  deriving DecidableEq

/-- The descriptors that `base_socket::~base_socket()` closes. -/
def BaseSocket.closing (sock : BaseSocket) : List SocketT :=
  (if sock.outSocket ≠ socketInvalidHandle then [sock.outSocket] else []) ++
    if sock.socket ≠ socketInvalidHandle then [sock.socket] else []

namespace SocketLife

/-- No object and no open descriptor. -/
def initial : SocketLife where
  kernel := SocketProgram.initial.kernel
  openings := 0
  owned := fun _ => false
  objects := fun _ => none
  adopted := []
  closes := []

/-- The kernel opens a descriptor whose number is free. -/
def install (life : SocketLife) (descriptor : SocketT) : Option SocketLife :=
  (life.kernel.install descriptor life.openings).map fun kernel =>
    { life with kernel := kernel, openings := life.openings + 1 }

/-- `close(descriptor)`. -/
def close (life : SocketLife) (descriptor : SocketT) : SocketLife :=
  { life with
    kernel := life.kernel.close descriptor
    closes := life.kernel.description descriptor :: life.closes }

/-- A new object takes over a descriptor. -/
def adopt (life : SocketLife) (name : Nat) (sock : SocketT) : SocketLife :=
  { life with
    owned := Function.update life.owned sock false
    objects := Function.update life.objects name (some ⟨sock, socketInvalidHandle⟩)
    adopted := (life.kernel.description sock).toList ++ life.adopted }

/-- `base_socket::base_socket(socket_t)` for a valid descriptor. -/
def construct (life : SocketLife) (name : Nat) (sock : SocketT) :
    Option SocketT → Option SocketLife
  | none => some (life.adopt name sock)
  | some result =>
      ((life.adopt name sock).install result).map fun opened =>
        { opened with
          objects := Function.update opened.objects name (some ⟨sock, result⟩)
          adopted := life.openings :: opened.adopted }

/-- One action.  A constructor needs a name that is not in use, and a descriptor
that the program owns. -/
def step (life : SocketLife) : LifeAction → Option SocketLife
  | .acquire descriptor =>
      (life.install descriptor).map fun opened =>
        { opened with owned := Function.update opened.owned descriptor true }
  | .default kind name =>
      match life.objects name, kind.default with
      | none, some sock =>
          some { life with objects := Function.update life.objects name (some sock) }
      | _, _ => none
  | .construct _ name sock dupResult =>
      if life.objects name = none ∧ life.owned sock = true then
        life.construct name sock dupResult
      else none
  | .moveConstruct kind name rhs =>
      match life.objects name, life.objects rhs with
      | none, some source =>
          let (built, left) := kind.moveConstruct source
          some
            { life with
              objects := Function.update
                (Function.update life.objects rhs (some left)) name (some built) }
      | _, _ => none
  | .moveAssign kind lhs rhs =>
      match life.objects lhs, life.objects rhs with
      | some target, some source =>
          let (assigned, left) := kind.moveAssign target source
          some
            { life with
              objects := Function.update
                (Function.update life.objects rhs (some left)) lhs (some assigned) }
      | _, _ => none
  | .destroy name =>
      (life.objects name).map fun sock =>
        { sock.closing.foldl close life with
          objects := Function.update life.objects name none }

/-- The destructor leaves the kernel as `BaseSocket.destroy` says. -/
theorem kernel_foldl_closing (life : SocketLife) (sock : BaseSocket) :
    (sock.closing.foldl close life).kernel = sock.destroy life.kernel := by
  unfold BaseSocket.closing BaseSocket.destroy
  split_ifs <;> rfl

/-- The descriptors that an action closes. -/
def closing (life : SocketLife) : LifeAction → List SocketT
  | .destroy name => (life.objects name).elim [] BaseSocket.closing
  | _ => []

/-- The object has the descriptor on one of its sides. -/
def HasDescriptor (sock : BaseSocket) (descriptor : SocketT) : Prop :=
  sock.socket = descriptor ∨ sock.outSocket = descriptor

/-- What the action closes is in no object that is live afterwards. -/
def SparesLive (life : SocketLife) (action : LifeAction) : Prop :=
  ∀ next, life.step action = some next →
    ∀ descriptor ∈ life.closing action, ∀ name sock, next.objects name = some sock →
      ¬HasDescriptor sock descriptor

/-- Every opening that an object took over or made has been ended by one call of
`close`, and no other call was made. -/
def ClosedOnce (life : SocketLife) : Prop :=
  life.adopted.Nodup ∧ life.closes.Perm (life.adopted.map some)

/-! ## The ledger of the slots -/

/-- The two descriptors of an object. -/
inductive Side
  | socket
  | outSocket
  deriving DecidableEq

/-- The descriptor on a side. -/
def side (sock : BaseSocket) : Side → SocketT
  | .socket => sock.socket
  | .outSocket => sock.outSocket

/-- A side of an object that may exist. -/
abbrev Slot := Nat × Side

/-- The descriptor in a slot; the invalid one where there is no object. -/
def number (objects : Nat → Option BaseSocket) (slot : Slot) : SocketT :=
  (objects slot.1).elim socketInvalidHandle fun sock => side sock slot.2

theorem number_update
    (objects : Nat → Option BaseSocket) (name : Nat) (object : Option BaseSocket) (slot : Slot) :
    number (Function.update objects name object) slot =
      if slot.1 = name then object.elim socketInvalidHandle fun sock => side sock slot.2
      else number objects slot := by
  unfold number
  rw [Function.update_apply]
  split_ifs <;> rfl

/-- The ledger accounts for the descriptors in the objects. -/
structure Accounts (life : SocketLife) (ledger : Ledger Slot Nat) : Prop where
  balanced : ledger.Balanced
  holder : ∀ slot, ledger.holder slot = life.kernel.description (number life.objects slot)
  isOpen : ∀ slot, number life.objects slot ≠ socketInvalidHandle →
    life.kernel.description (number life.objects slot) ≠ none
  opened : ledger.opened = life.adopted
  closed : ledger.closed.map some = life.closes
  recent : ∀ descriptor opening, life.kernel.description descriptor = some opening →
    opening < life.openings
  adoptedRecent : ∀ opening ∈ life.adopted, opening < life.openings
  distinct : ∀ descriptor descriptor' opening,
    life.kernel.description descriptor = some opening →
      life.kernel.description descriptor' = some opening → descriptor = descriptor'
  owned : ∀ descriptor, life.owned descriptor = true →
    ∃ opening, life.kernel.description descriptor = some opening ∧ opening ∉ life.adopted

theorem accounts_initial : Accounts initial .empty where
  balanced := Ledger.balanced_empty
  holder _ := rfl
  isOpen slot valid := absurd rfl valid
  opened := rfl
  closed := rfl
  recent := by simp [initial, SocketProgram.initial]
  adoptedRecent := by simp [initial]
  distinct := by simp [initial, SocketProgram.initial]
  owned := by simp [initial]

/-- No two slots have the same valid descriptor. -/
theorem Accounts.slot_eq
    {life : SocketLife} {ledger : Ledger Slot Nat} {slot slot' : Slot}
    (accounts : Accounts life ledger)
    (valid : number life.objects slot ≠ socketInvalidHandle)
    (same : number life.objects slot' = number life.objects slot) :
    slot' = slot := by
  obtain ⟨opening, described⟩ := Option.ne_none_iff_exists'.mp (accounts.isOpen slot valid)
  have holds := (accounts.holder slot).trans described
  have holds' := (accounts.holder slot').trans (same ▸ described)
  exact accounts.balanced.single slot' slot opening holds' holds

/-- The kernel opens a descriptor. -/
theorem Accounts.install
    {life next : SocketLife} {ledger : Ledger Slot Nat} {descriptor : SocketT}
    (accounts : Accounts life ledger)
    (opened : life.install descriptor = some next) :
    Accounts next ledger ∧ next.kernel.description descriptor = some life.openings ∧
      life.openings ∉ life.adopted ∧ next.owned descriptor = false := by
  obtain ⟨kernel, installed, rfl⟩ := Option.map_eq_some_iff.mp opened
  obtain ⟨valid, free, table⟩ := Kernel.install_eq_some installed
  have other : ∀ {held}, held ≠ descriptor →
      kernel.description held = life.kernel.description held := fun different => by
    rw [table, Function.update_of_ne different]
  have notSlot : ∀ slot, number life.objects slot ≠ descriptor := by
    intro slot isDescriptor
    exact accounts.isOpen slot (isDescriptor ▸ valid) (isDescriptor ▸ free)
  have described : kernel.description descriptor = some life.openings := by
    rw [table, Function.update_self]
  have fresh : life.openings ∉ life.adopted := fun adopted =>
    Nat.lt_irrefl _ (accounts.adoptedRecent _ adopted)
  have notOwned : life.owned descriptor = false := by
    by_contra isOwned
    obtain ⟨opening, isOpening, -⟩ := accounts.owned descriptor (by simpa using isOwned)
    rw [free] at isOpening
    cases isOpening
  refine ⟨?_, described, fresh, notOwned⟩
  exact
    { balanced := accounts.balanced
      holder := fun slot => (accounts.holder slot).trans (other (notSlot slot)).symm
      isOpen := fun slot isValid => (other (notSlot slot)).symm ▸ accounts.isOpen slot isValid
      opened := accounts.opened
      closed := accounts.closed
      recent := by
        intro held opening isOpening
        by_cases same : held = descriptor
        · rw [same, described] at isOpening
          exact (Option.some.inj isOpening) ▸ Nat.lt_succ_self _
        · rw [other same] at isOpening
          exact Nat.lt_succ_of_lt (accounts.recent held opening isOpening)
      adoptedRecent := fun opening adopted =>
        Nat.lt_succ_of_lt (accounts.adoptedRecent opening adopted)
      distinct := by
        intro held held' opening isOpening isOpening'
        by_cases same : held = descriptor <;> by_cases same' : held' = descriptor
        · rw [same, same']
        · rw [same, described] at isOpening
          rw [other same'] at isOpening'
          have := accounts.recent held' opening isOpening'
          have := Option.some.inj isOpening
          omega
        · rw [same', described] at isOpening'
          rw [other same] at isOpening
          have := accounts.recent held opening isOpening
          have := Option.some.inj isOpening'
          omega
        · rw [other same] at isOpening
          rw [other same'] at isOpening'
          exact accounts.distinct held held' opening isOpening isOpening'
      owned := by
        intro held isOwned
        obtain ⟨opening, isOpening, notAdopted⟩ := accounts.owned held isOwned
        have different : held ≠ descriptor := by
          rintro rfl
          exact Bool.false_ne_true (notOwned.symm.trans isOwned)
        exact ⟨opening, (other different).trans isOpening, notAdopted⟩ }

/-- A descriptor that no object has goes into a free slot. -/
theorem Accounts.put
    {life : SocketLife} {ledger : Ledger Slot Nat} {slot : Slot} {descriptor : SocketT}
    {opening : Nat} {objects : Nat → Option BaseSocket} {owned : SocketT → Bool}
    (accounts : Accounts life ledger)
    (described : life.kernel.description descriptor = some opening)
    (notAdopted : opening ∉ life.adopted)
    (free : number life.objects slot = socketInvalidHandle)
    (placed : number objects = Function.update (number life.objects) slot descriptor)
    (disowned : ∀ other, owned other = true → life.owned other = true ∧ other ≠ descriptor) :
    Accounts
      { life with
        owned := owned
        objects := objects
        adopted := opening :: life.adopted }
      (ledger.put slot opening) where
  balanced := by
    refine accounts.balanced.put ?_ (accounts.opened ▸ notAdopted)
    rw [accounts.holder, free, life.kernel.invalid_closed]
  holder other := by
    change Function.update ledger.holder slot (some opening) other =
      life.kernel.description (number objects other)
    rw [placed, Function.update_apply, Function.update_apply]
    split_ifs
    · exact described.symm
    · exact accounts.holder other
  isOpen other := by
    change number objects other ≠ socketInvalidHandle →
      life.kernel.description (number objects other) ≠ none
    rw [placed, Function.update_apply]
    split_ifs
    · intro _
      rw [described]
      exact Option.some_ne_none opening
    · exact accounts.isOpen other
  opened := congrArg (opening :: ·) accounts.opened
  closed := accounts.closed
  recent := accounts.recent
  adoptedRecent := by
    intro other adopted
    rcases List.mem_cons.mp adopted with rfl | before
    · exact accounts.recent descriptor other described
    · exact accounts.adoptedRecent other before
  distinct := accounts.distinct
  owned other isOwned := by
    obtain ⟨wasOwned, different⟩ := disowned other isOwned
    obtain ⟨opening', isOpening, notBefore⟩ := accounts.owned other wasOwned
    refine ⟨opening', isOpening, fun adopted => ?_⟩
    rcases List.mem_cons.mp adopted with rfl | before
    · exact different (accounts.distinct other descriptor opening' isOpening described)
    · exact notBefore before

/-- The slots exchange their descriptors. -/
theorem Accounts.exchange
    {life : SocketLife} {ledger : Ledger Slot Nat} {objects : Nat → Option BaseSocket}
    (accounts : Accounts life ledger)
    (places : Equiv.Perm Slot)
    (exchanged : ∀ slot, number objects slot = number life.objects (places slot)) :
    Accounts { life with objects := objects } (ledger.exchange places) where
  balanced := accounts.balanced.exchange places
  holder slot := (accounts.holder (places slot)).trans (by rw [exchanged])
  isOpen slot valid := by
    rw [exchanged] at valid ⊢
    exact accounts.isOpen (places slot) valid
  opened := accounts.opened
  closed := accounts.closed
  recent := accounts.recent
  adoptedRecent := accounts.adoptedRecent
  distinct := accounts.distinct
  owned := accounts.owned

/-- The descriptor in a slot is closed and leaves it. -/
theorem Accounts.close
    {life : SocketLife} {ledger : Ledger Slot Nat} {slot : Slot}
    {objects : Nat → Option BaseSocket}
    (accounts : Accounts life ledger)
    (valid : number life.objects slot ≠ socketInvalidHandle)
    (emptied : number objects = Function.update (number life.objects) slot socketInvalidHandle) :
    Accounts { life.close (number life.objects slot) with objects := objects }
      (ledger.close slot) := by
  obtain ⟨opening, described⟩ := Option.ne_none_iff_exists'.mp (accounts.isOpen slot valid)
  have holds := (accounts.holder slot).trans described
  have adopted : opening ∈ life.adopted :=
    accounts.opened ▸ (accounts.balanced.held slot opening holds).1
  have other : ∀ {held}, held ≠ number life.objects slot →
      (life.kernel.close (number life.objects slot)).description held =
        life.kernel.description held := fun different => by
    simp [Kernel.close, Function.update_of_ne different]
  have gone : (life.kernel.close (number life.objects slot)).description
      (number life.objects slot) = none := by
    simp [Kernel.close]
  have before : ∀ {held opening'},
      (life.kernel.close (number life.objects slot)).description held = some opening' →
        life.kernel.description held = some opening' := by
    intro held opening' isOpening
    have different : held ≠ number life.objects slot := by
      rintro rfl
      rw [gone] at isOpening
      cases isOpening
    exact (other different).symm.trans isOpening
  refine
    { balanced := accounts.balanced.close slot
      holder := ?_
      isOpen := ?_
      opened := accounts.opened
      closed := ?_
      recent := fun held opening' isOpening => accounts.recent held opening' (before isOpening)
      adoptedRecent := accounts.adoptedRecent
      distinct := fun held held' opening' isOpening isOpening' =>
        accounts.distinct held held' opening' (before isOpening) (before isOpening')
      owned := ?_ }
  · intro slot'
    change Function.update ledger.holder slot none slot' =
      (life.kernel.close (number life.objects slot)).description (number objects slot')
    rw [emptied, Function.update_apply, Function.update_apply]
    split_ifs with same
    · exact (life.kernel.close _).invalid_closed.symm
    · rw [accounts.holder, other fun isSame => same (accounts.slot_eq valid isSame)]
  · intro slot'
    change number objects slot' ≠ socketInvalidHandle →
      (life.kernel.close (number life.objects slot)).description (number objects slot') ≠ none
    rw [emptied, Function.update_apply]
    split_ifs with same
    · exact fun absurd_ => absurd rfl absurd_
    · rw [other fun isSame => same (accounts.slot_eq valid isSame)]
      exact accounts.isOpen slot'
  · change List.map some ((ledger.holder slot).toList ++ ledger.closed) =
      life.kernel.description (number life.objects slot) :: life.closes
    rw [holds, described, ← accounts.closed]
    rfl
  · intro held isOwned
    obtain ⟨opening', isOpening, notAdopted⟩ := accounts.owned held isOwned
    have different : held ≠ number life.objects slot := by
      rintro rfl
      rw [described] at isOpening
      exact notAdopted (Option.some.inj isOpening ▸ adopted)
    exact ⟨opening', (other different).trans isOpening, notAdopted⟩

/-! ## One step -/

/-- A slot of an object that is not there is free. -/
theorem number_of_absent
    {objects : Nat → Option BaseSocket} {name : Nat}
    (absent : objects name = none)
    (side_ : Side) :
    number objects (name, side_) = socketInvalidHandle := by
  simp [number, absent]

/-- A new object with one descriptor fills one slot. -/
theorem number_update_adopt
    {objects : Nat → Option BaseSocket} {name : Nat}
    (absent : objects name = none)
    (sock : SocketT) :
    number (Function.update objects name (some ⟨sock, socketInvalidHandle⟩)) =
      Function.update (number objects) (name, .socket) sock := by
  funext ⟨other, side_⟩
  rw [number_update, Function.update_apply]
  by_cases same : other = name
  · subst same
    cases side_ with
    | socket => simp [side]
    | outSocket => simp [side, number_of_absent absent]
  · simp [same]

/-- Only the second descriptor of an object changes. -/
theorem number_update_outSocket
    {objects : Nat → Option BaseSocket} {name : Nat} {sock outSocket : SocketT}
    (present : objects name = some ⟨sock, outSocket⟩)
    (result : SocketT) :
    number (Function.update objects name (some ⟨sock, result⟩)) =
      Function.update (number objects) (name, .outSocket) result := by
  funext ⟨other, side_⟩
  rw [number_update, Function.update_apply]
  by_cases same : other = name
  · subst same
    cases side_ with
    | socket => simp [side, number, present]
    | outSocket => simp [side]
  · simp [same]

/-- A new object takes over a descriptor of the program's own. -/
theorem Accounts.adopt
    {life : SocketLife} {ledger : Ledger Slot Nat} {name : Nat} {sock : SocketT}
    (accounts : Accounts life ledger)
    (absent : life.objects name = none)
    (isOwned : life.owned sock = true) :
    ∃ ledger, Accounts (life.adopt name sock) ledger := by
  obtain ⟨opening, described, notAdopted⟩ := accounts.owned sock isOwned
  have disowned : ∀ other, Function.update life.owned sock false other = true →
      life.owned other = true ∧ other ≠ sock := by
    intro other stillOwned
    rw [Function.update_apply] at stillOwned
    split_ifs at stillOwned with same
    exact ⟨stillOwned, same⟩
  refine ⟨ledger.put (name, .socket) opening, ?_⟩
  unfold SocketLife.adopt
  rw [described]
  exact accounts.put described notAdopted (number_of_absent absent .socket)
    (number_update_adopt absent sock) disowned

theorem Accounts.construct
    {life next : SocketLife} {ledger : Ledger Slot Nat} {name : Nat} {sock : SocketT}
    {dupResult : Option SocketT}
    (accounts : Accounts life ledger)
    (absent : life.objects name = none)
    (isOwned : life.owned sock = true)
    (constructed : life.construct name sock dupResult = some next) :
    ∃ ledger, Accounts next ledger := by
  obtain ⟨adopted, afterAdopt⟩ := accounts.adopt absent isOwned
  cases dupResult with
  | none =>
      obtain rfl := Option.some.inj constructed
      exact ⟨adopted, afterAdopt⟩
  | some result =>
      obtain ⟨opened, installed, rfl⟩ := Option.map_eq_some_iff.mp constructed
      obtain ⟨afterDup, described, notAdopted, notOwned⟩ := afterAdopt.install installed
      obtain ⟨kernel, wasInstalled, rfl⟩ := Option.map_eq_some_iff.mp installed
      have present : (life.adopt name sock).objects name = some ⟨sock, socketInvalidHandle⟩ :=
        Function.update_self _ _ _
      have free : number (life.adopt name sock).objects (name, .outSocket) =
          socketInvalidHandle := by
        simp [number, present, side]
      refine ⟨_, afterDup.put described notAdopted free (number_update_outSocket present result)
        fun other stillOwned => ⟨stillOwned, ?_⟩⟩
      rintro rfl
      exact Bool.false_ne_true (notOwned.symm.trans stillOwned)

/-- A move construction exchanges the slots of both objects. -/
theorem Accounts.moveConstruct
    {life : SocketLife} {ledger : Ledger Slot Nat} {name rhs : Nat} {source : BaseSocket}
    (accounts : Accounts life ledger)
    (absent : life.objects name = none)
    (present : life.objects rhs = some source) :
    ∃ ledger, Accounts
      { life with
        objects := Function.update
          (Function.update life.objects rhs (some source.moveConstruct.2)) name
          (some source.moveConstruct.1) } ledger := by
  refine ⟨_, accounts.exchange ((Equiv.swap name rhs).prodCongr (Equiv.refl Side)) ?_⟩
  rintro ⟨other, side_⟩
  have different : rhs ≠ name := by
    rintro rfl
    rw [absent] at present
    cases present
  rw [number_update, number_update]
  change _ = number life.objects (Equiv.swap name rhs other, side_)
  by_cases isName : other = name
  · subst isName
    rw [if_pos rfl, Equiv.swap_apply_left, number, present]
    cases side_ <;> rfl
  · rw [if_neg isName]
    by_cases isRhs : other = rhs
    · subst isRhs
      rw [if_pos rfl, Equiv.swap_apply_right, number_of_absent absent]
      cases side_ <;> rfl
    · rw [if_neg isRhs, Equiv.swap_apply_of_ne_of_ne isName isRhs]

/-- A move assignment exchanges one slot of each object. -/
theorem Accounts.moveAssign
    {life : SocketLife} {ledger : Ledger Slot Nat} {lhs rhs : Nat} {target source : BaseSocket}
    (accounts : Accounts life ledger)
    (presentTarget : life.objects lhs = some target)
    (presentSource : life.objects rhs = some source) :
    ∃ ledger, Accounts
      { life with
        objects := Function.update
          (Function.update life.objects rhs (some (target.moveAssign source).2)) lhs
          (some (target.moveAssign source).1) } ledger := by
  refine ⟨_, accounts.exchange (Equiv.swap (lhs, .socket) (rhs, .socket)) ?_⟩
  rintro ⟨other, side_⟩
  rw [number_update, number_update]
  cases side_ with
  | outSocket =>
      have stays : Equiv.swap (lhs, Side.socket) (rhs, .socket) (other, .outSocket) =
          (other, .outSocket) :=
        Equiv.swap_apply_of_ne_of_ne (by simp) (by simp)
      rw [stays]
      dsimp only
      split_ifs with isLhs isRhs
      · subst isLhs
        simp [number, presentTarget, BaseSocket.moveAssign, side]
      · subst isRhs
        simp [number, presentSource, BaseSocket.moveAssign, side]
      · rfl
  | socket =>
      dsimp only
      split_ifs with isLhs isRhs
      · subst isLhs
        rw [Equiv.swap_apply_left]
        simp [number, presentSource, BaseSocket.moveAssign, side]
      · subst isRhs
        rw [Equiv.swap_apply_right]
        simp [number, presentTarget, BaseSocket.moveAssign, side]
      · rw [Equiv.swap_apply_of_ne_of_ne (by simpa using isLhs) (by simpa using isRhs)]

theorem Accounts.acquire
    {life next : SocketLife} {ledger : Ledger Slot Nat} {descriptor : SocketT}
    (accounts : Accounts life ledger)
    (installed : life.install descriptor = some next) :
    Accounts { next with owned := Function.update next.owned descriptor true } ledger := by
  obtain ⟨afterwards, described, notAdopted, -⟩ := accounts.install installed
  obtain ⟨kernel, wasInstalled, rfl⟩ := Option.map_eq_some_iff.mp installed
  refine { afterwards with owned := fun other isOwned => ?_ }
  by_cases same : other = descriptor
  · exact ⟨life.openings, same ▸ described, notAdopted⟩
  · simp only [Function.update_of_ne same] at isOwned
    exact afterwards.owned other isOwned

/-- A default constructed object leaves its slots free. -/
theorem Accounts.default
    {life : SocketLife} {ledger : Ledger Slot Nat} {name : Nat}
    (accounts : Accounts life ledger)
    (absent : life.objects name = none) :
    ∃ ledger, Accounts
      { life with
        objects := Function.update life.objects name (some BaseSocket.default) } ledger := by
  refine ⟨_, accounts.exchange (Equiv.refl Slot) ?_⟩
  rintro ⟨other, side_⟩
  rw [number_update]
  by_cases same : other = name
  · subst same
    rw [if_pos rfl, Equiv.refl_apply, number_of_absent absent]
    cases side_ <;> rfl
  · rw [if_neg same]
    rfl

/-- One slot of an object is closed, if it is not free. -/
theorem Accounts.closeSlot
    {life : SocketLife} {ledger : Ledger Slot Nat} {slot : Slot} {descriptor : SocketT}
    {objects : Nat → Option BaseSocket}
    (accounts : Accounts life ledger)
    (inSlot : number life.objects slot = descriptor)
    (emptied : number objects = Function.update (number life.objects) slot socketInvalidHandle) :
    ∃ ledger, Accounts
      { (if descriptor ≠ socketInvalidHandle then [descriptor] else []).foldl
          SocketLife.close life with
        objects := objects } ledger := by
  subst inSlot
  by_cases valid : number life.objects slot ≠ socketInvalidHandle
  · rw [if_pos valid]
    exact ⟨_, accounts.close valid emptied⟩
  · rw [if_neg valid]
    refine ⟨_, accounts.exchange (Equiv.refl Slot) fun slot' => ?_⟩
    rw [emptied, ← not_not.mp valid, Function.update_eq_self]
    rfl

theorem foldl_close_objects
    (life : SocketLife) (objects : Nat → Option BaseSocket) (descriptors : List SocketT) :
    descriptors.foldl close { life with objects := objects } =
      { descriptors.foldl close life with objects := objects } := by
  induction descriptors generalizing life with
  | nil => rfl
  | cons descriptor descriptors inductionHypothesis =>
      exact inductionHypothesis (life.close descriptor)

theorem adopted_foldl_close (life : SocketLife) (descriptors : List SocketT) :
    (descriptors.foldl close life).adopted = life.adopted := by
  induction descriptors generalizing life with
  | nil => rfl
  | cons descriptor descriptors inductionHypothesis =>
      exact inductionHypothesis (life.close descriptor)

/-- The destructor closes both slots. -/
theorem Accounts.destroy
    {life : SocketLife} {ledger : Ledger Slot Nat} {name : Nat} {sock : BaseSocket}
    (accounts : Accounts life ledger)
    (present : life.objects name = some sock) :
    ∃ ledger, Accounts
      { sock.closing.foldl SocketLife.close life with
        objects := Function.update life.objects name none } ledger := by
  obtain ⟨socket, outSocket⟩ := sock
  have inSlot : number life.objects (name, .outSocket) = outSocket := by
    simp [number, present, side]
  obtain ⟨between, afterFirst⟩ := accounts.closeSlot inSlot
    (number_update_outSocket present socketInvalidHandle)
  have inSlot' : number
      (Function.update life.objects name (some ⟨socket, socketInvalidHandle⟩)) (name, .socket) =
        socket := by
    simp [number, side]
  have emptied : number (Function.update
      (Function.update life.objects name (some ⟨socket, socketInvalidHandle⟩)) name none) =
        Function.update (number
          (Function.update life.objects name (some ⟨socket, socketInvalidHandle⟩)))
          (name, .socket) socketInvalidHandle := by
    funext ⟨other, side_⟩
    rw [number_update, Function.update_apply]
    by_cases same : other = name
    · subst same
      cases side_ with
      | socket => simp
      | outSocket => simp [number, side]
    · simp [same]
  obtain ⟨last, afterSecond⟩ := afterFirst.closeSlot inSlot' emptied
  rw [foldl_close_objects, Function.update_idem] at afterSecond
  refine ⟨last, ?_⟩
  unfold BaseSocket.closing
  rw [List.foldl_append]
  exact afterSecond

/-- Every action keeps the account. -/
theorem Accounts.step
    {life next : SocketLife} {ledger : Ledger Slot Nat} {action : LifeAction}
    (accounts : Accounts life ledger)
    (stepped : life.step action = some next) :
    ∃ ledger, Accounts next ledger := by
  cases action with
  | acquire descriptor =>
      obtain ⟨opened, installed, rfl⟩ := Option.map_eq_some_iff.mp stepped
      exact ⟨ledger, accounts.acquire installed⟩
  | default kind name =>
      simp only [SocketLife.step] at stepped
      split at stepped
      · rename_i sock absent constructed
        obtain rfl := Option.some.inj stepped
        obtain rfl := SocketKind.default_eq_some constructed
        exact accounts.default absent
      · cases stepped
  | construct kind name sock dupResult =>
      simp only [SocketLife.step] at stepped
      split_ifs at stepped with legal
      exact accounts.construct legal.1 legal.2 stepped
  | moveConstruct kind name rhs =>
      simp only [SocketLife.step, SocketKind.moveConstruct_eq] at stepped
      split at stepped
      · rename_i source absent present
        obtain rfl := Option.some.inj stepped
        exact accounts.moveConstruct absent present
      · cases stepped
  | moveAssign kind lhs rhs =>
      simp only [SocketLife.step, SocketKind.moveAssign_eq] at stepped
      split at stepped
      · rename_i target source presentTarget presentSource
        obtain rfl := Option.some.inj stepped
        exact accounts.moveAssign presentTarget presentSource
      · cases stepped
  | destroy name =>
      obtain ⟨sock, present, rfl⟩ := Option.map_eq_some_iff.mp stepped
      exact accounts.destroy present

/-! ## Runs -/

/-- The destructor closes what is in the slots of its own object. -/
theorem exists_slot_of_mem_closing
    {objects : Nat → Option BaseSocket} {name : Nat} {sock : BaseSocket} {descriptor : SocketT}
    (present : objects name = some sock)
    (closes : descriptor ∈ sock.closing) :
    descriptor ≠ socketInvalidHandle ∧ ∃ side_, number objects (name, side_) = descriptor := by
  unfold BaseSocket.closing at closes
  rw [List.mem_append] at closes
  rcases closes with isOut | isSocket
  · split_ifs at isOut with valid
    · obtain rfl := List.mem_singleton.mp isOut
      exact ⟨valid, .outSocket, by simp [number, present, side]⟩
    · cases isOut
  · split_ifs at isSocket with valid
    · obtain rfl := List.mem_singleton.mp isSocket
      exact ⟨valid, .socket, by simp [number, present, side]⟩
    · cases isSocket

/-- A descriptor of an object is in one of its slots. -/
theorem HasDescriptor.exists_slot
    {objects : Nat → Option BaseSocket} {name : Nat} {sock : BaseSocket} {descriptor : SocketT}
    (present : objects name = some sock)
    (has : HasDescriptor sock descriptor) :
    ∃ side_, number objects (name, side_) = descriptor := by
  rcases has with isSocket | isOut
  · exact ⟨.socket, by simpa [number, present, side] using isSocket⟩
  · exact ⟨.outSocket, by simpa [number, present, side] using isOut⟩

theorem Accounts.sparesLive
    {life : SocketLife} {ledger : Ledger Slot Nat}
    (accounts : Accounts life ledger)
    (action : LifeAction) :
    life.SparesLive action := by
  intro next stepped descriptor closes other sock' presentOther has
  cases action with
  | destroy name =>
      obtain ⟨sock, present, rfl⟩ := Option.map_eq_some_iff.mp stepped
      simp only [closing, present, Option.elim_some] at closes
      simp only [Function.update_apply] at presentOther
      split_ifs at presentOther with different
      obtain ⟨valid, side_, inSlot⟩ := exists_slot_of_mem_closing present closes
      obtain ⟨side', inSlot'⟩ := has.exists_slot presentOther
      have sameSlot := accounts.slot_eq (inSlot ▸ valid) (inSlot'.trans inSlot.symm)
      exact different (Prod.mk.inj sameSlot).1
  | acquire | default | construct | moveConstruct | moveAssign => cases closes

theorem Accounts.closedOnce_of_absent
    {life : SocketLife} {ledger : Ledger Slot Nat}
    (accounts : Accounts life ledger)
    (destroyed : ∀ name, life.objects name = none) :
    life.ClosedOnce := by
  have free : ∀ slot, ledger.holder slot = none := by
    rintro ⟨name, side_⟩
    rw [accounts.holder, number_of_absent (destroyed name), life.kernel.invalid_closed]
  have closed := (accounts.balanced.closed_perm free).map some
  rw [accounts.closed, accounts.opened] at closed
  exact ⟨accounts.opened ▸ accounts.balanced.openedOnce, closed⟩

theorem exists_accounts_step
    {life next : SocketLife} {action : LifeAction}
    (accounted : ∃ ledger, Accounts life ledger)
    (stepped : life.step action = some next) :
    ∃ ledger, Accounts next ledger := by
  obtain ⟨ledger, accounts⟩ := accounted
  exact accounts.step stepped

theorem exists_accounts
    {actions : List LifeAction} {last : SocketLife}
    (ran : Machine.run step initial actions = some last) :
    ∃ ledger, Accounts last ledger :=
  Machine.invariant_of_reachable (fun _ _ _ accounted => exists_accounts_step accounted)
    ⟨_, accounts_initial⟩ ⟨actions, ran⟩

/-- Whatever a program does with its objects, no action closes a descriptor that
a live object has, and once all objects are destroyed every descriptor that one
of them took over, and every `dup`, has been closed exactly once. -/
theorem sparesLive_and_closedOnce (actions : List LifeAction) :
    Machine.AllSteps step SparesLive initial actions ∧
      ∀ last, Machine.run step initial actions = some last →
        (∀ name, last.objects name = none) → last.ClosedOnce := by
  have initially : ∃ ledger, Accounts initial ledger := ⟨_, accounts_initial⟩
  constructor
  · exact (Machine.allSteps_true step initial actions).imp
      (fun life action ⟨ledger, accounts⟩ _ => accounts.sparesLive action)
      (fun life action next accounted _ stepped => exists_accounts_step accounted stepped)
      initially
  · intro last ran destroyed
    obtain ⟨ledger, accounts⟩ := exists_accounts ran
    exact accounts.closedOnce_of_absent destroyed

/-- Two sockets and a listener whose `dup` failed, moved about and destroyed; the
kernel uses a number again. -/
def exchanges : List LifeAction :=
  [.acquire 3, .construct (.socket .tcpSocket) 0 3 (some 4), .acquire 5,
    .construct (.socket .tcpSocket) 1 5 (some 6), .moveAssign (.socket .tcpSocket) 0 1,
    .moveAssign (.socket .tcpSocket) 0 0, .moveConstruct (.socket .tcpSocket) 2 0,
    .destroy 0, .destroy 2, .acquire 4, .construct .tcpListener 0 4 none, .destroy 1,
    .destroy 0]

theorem closedOnce_exchanges :
    ∃ last, Machine.run step initial exchanges = some last ∧ last.ClosedOnce := by
  refine ⟨_, rfl, (sparesLive_and_closedOnce exchanges).2 _ rfl fun name => ?_⟩
  match name with
  | 0 | 1 | 2 => rfl
  | _ + 3 => rfl

/-! ## What the objects of a program hold -/

/-- The openings in the descriptors of the object that the action has constructed. -/
def built (next : SocketLife) : LifeAction → List (Option Nat)
  | .construct _ name _ _ =>
      (next.objects name).elim [] fun sock => sock.closing.map next.kernel.description
  | _ => []

/-- The openings in the objects that a program constructs, the last one first. -/
def builtBy : SocketLife → List LifeAction → List (Option Nat)
  | _, [] => []
  | life, action :: actions =>
      (life.step action).elim [] fun next => builtBy next actions ++ next.built action

theorem closing_of_valid
    {sock : SocketT}
    (valid : sock ≠ socketInvalidHandle) :
    BaseSocket.closing ⟨sock, socketInvalidHandle⟩ = [sock] := by
  simp [BaseSocket.closing, valid]

theorem closing_of_valid_dup
    {sock result : SocketT}
    (valid : sock ≠ socketInvalidHandle)
    (validResult : result ≠ socketInvalidHandle) :
    BaseSocket.closing ⟨sock, result⟩ = [result, sock] := by
  simp [BaseSocket.closing, valid, validResult]

/-- A descriptor of the program's own is open. -/
theorem Accounts.valid_of_owned
    {life : SocketLife} {ledger : Ledger Slot Nat} {sock : SocketT}
    (accounts : Accounts life ledger)
    (isOwned : life.owned sock = true) :
    sock ≠ socketInvalidHandle := by
  rintro rfl
  obtain ⟨opening, described, -⟩ := accounts.owned _ isOwned
  rw [life.kernel.invalid_closed] at described
  cases described

/-- A construction adopts what the new object holds. -/
theorem Accounts.adopted_construct
    {life next : SocketLife} {ledger : Ledger Slot Nat} {kind : SocketKind} {name : Nat}
    {sock : SocketT} {dupResult : Option SocketT}
    (accounts : Accounts life ledger)
    (isOwned : life.owned sock = true)
    (constructed : life.construct name sock dupResult = some next) :
    next.adopted.map some =
      next.built (.construct kind name sock dupResult) ++ life.adopted.map some := by
  obtain ⟨opening, described, -⟩ := accounts.owned sock isOwned
  have valid := accounts.valid_of_owned isOwned
  cases dupResult with
  | none =>
      obtain rfl := Option.some.inj constructed
      simp [built, SocketLife.adopt, closing_of_valid valid, described]
  | some result =>
      obtain ⟨opened, installed, rfl⟩ := Option.map_eq_some_iff.mp constructed
      obtain ⟨kernel, wasInstalled, rfl⟩ := Option.map_eq_some_iff.mp installed
      obtain ⟨validResult, free, table⟩ := Kernel.install_eq_some wasInstalled
      -- The number that `dup` returns is free, so it is not the descriptor itself.
      have different : sock ≠ result := by
        rintro rfl
        rw [SocketLife.adopt, described] at free
        cases free
      simp [built, SocketLife.adopt, closing_of_valid_dup valid validResult, table, described,
        different]

/-- Nothing but a construction adopts. -/
theorem Accounts.adopted_step
    {life next : SocketLife} {ledger : Ledger Slot Nat} {action : LifeAction}
    (accounts : Accounts life ledger)
    (stepped : life.step action = some next) :
    next.adopted.map some = next.built action ++ life.adopted.map some := by
  cases action with
  | construct kind name sock dupResult =>
      simp only [SocketLife.step] at stepped
      split_ifs at stepped with legal
      exact accounts.adopted_construct legal.2 stepped
  | acquire descriptor =>
      obtain ⟨opened, installed, rfl⟩ := Option.map_eq_some_iff.mp stepped
      obtain ⟨kernel, -, rfl⟩ := Option.map_eq_some_iff.mp installed
      rfl
  | default kind name | moveConstruct kind name rhs | moveAssign kind lhs rhs =>
      simp only [SocketLife.step] at stepped
      split at stepped
      · obtain rfl := Option.some.inj stepped
        rfl
      · cases stepped
  | destroy name =>
      obtain ⟨sock, -, rfl⟩ := Option.map_eq_some_iff.mp stepped
      exact congrArg (List.map some) (adopted_foldl_close life sock.closing)

theorem Accounts.adopted_run
    {life last : SocketLife} {ledger : Ledger Slot Nat} {actions : List LifeAction}
    (accounts : Accounts life ledger)
    (ran : Machine.run SocketLife.step life actions = some last) :
    last.adopted.map some = life.builtBy actions ++ life.adopted.map some := by
  induction actions generalizing life ledger with
  | nil =>
      obtain rfl := Option.some.inj ran
      rfl
  | cons action actions inductionHypothesis =>
      rw [Machine.run_cons] at ran
      obtain ⟨next, stepped, ranNext⟩ := Option.bind_eq_some_iff.mp ran
      obtain ⟨ledger', accounts'⟩ := accounts.step stepped
      rw [inductionHypothesis accounts' ranNext, accounts.adopted_step stepped, builtBy, stepped,
        Option.elim_some, List.append_assoc]

/-- Once all objects are destroyed, the calls of `close` are those for the descriptors that
the objects held when they were constructed. -/
theorem closes_perm_builtBy
    {actions : List LifeAction} {last : SocketLife}
    (ran : Machine.run step initial actions = some last)
    (destroyed : ∀ name, last.objects name = none) :
    last.closes.Perm (initial.builtBy actions) := by
  obtain ⟨ledger, accounts⟩ := exists_accounts ran
  have closed := (accounts.closedOnce_of_absent destroyed).2
  rw [accounts_initial.adopted_run ran] at closed
  simpa [initial] using closed

end SocketLife
end Cppio
