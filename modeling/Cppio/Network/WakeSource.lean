import Cppio.Reactor.Operations
import Cppio.Task.Trace

/-!
# Whether a parked task has a wake source

`epoll::add_for_read`, `add_for_write` and `add_for_all` for every outcome of
their `epoll_ctl` calls, and the runs of the POSIX operations that register.  The
last two functions have no `return` where `EPOLL_CTL_MOD` succeeds.  No operation
looks at the result: after a registration that failed it suspends all the same.
-/

namespace Cppio

/-! ## Registering -/

/-- What `epoll_ctl` returns for `EPOLL_CTL_MOD`, and for the `EPOLL_CTL_ADD` that
follows where the first fails. -/
structure EpollCtl where
  modify : Int
  add : Int
  deriving DecidableEq

namespace EpollCtl

/-- The descriptor ends up armed, with the `basic_overlapped` of this registration. -/
def armed (ctl : EpollCtl) : Bool := ctl.modify = 0 || ctl.add = 0

/-- The part that the three functions have in common: `EPOLL_CTL_MOD`, or else
`EPOLL_CTL_ADD`.  There is no value where the end is reached without a `return`. -/
def addFor (whenModified : Option Bool) (ctl : EpollCtl) : Option Bool :=
  if ctl.modify ≠ 0 then some (ctl.add = 0) else whenModified

/-- `epoll::add_for_read`. -/
def addForRead : EpollCtl → Option Bool := addFor (some true)

/-- `epoll::add_for_write`. -/
def addForWrite : EpollCtl → Option Bool := addFor none

/-- `epoll::add_for_all`. -/
def addForAll : EpollCtl → Option Bool := addFor none

theorem addForRead_eq (ctl : EpollCtl) : ctl.addForRead = some ctl.armed := by
  unfold addForRead addFor armed
  split_ifs with modified
  · simp [modified]
  · simp [not_not.mp modified]

theorem addFor_none_iff (ctl : EpollCtl) : addFor none ctl = some ctl.armed ↔ ctl.modify ≠ 0 := by
  unfold addFor armed
  split_ifs with modified
  · simp [modified]
  · simpa using modified

/-- What the operation's call returns. -/
def returned : Interest → EpollCtl → Option Bool
  | .read => addForRead
  | .write => addForWrite

/-- The registration arms the descriptor, and its function reaches a `return`. -/
def Succeeds : Interest → EpollCtl → Prop
  | .read, ctl => ctl.modify = 0 ∨ ctl.add = 0
  | .write, ctl => ctl.modify ≠ 0 ∧ ctl.add = 0

instance (interest : Interest) (ctl : EpollCtl) : Decidable (Succeeds interest ctl) :=
  match interest with
  | .read => inferInstanceAs (Decidable (_ ∨ _))
  | .write => inferInstanceAs (Decidable (_ ∧ _))

theorem succeeds_iff (interest : Interest) (ctl : EpollCtl) :
    Succeeds interest ctl ↔ ctl.returned interest = some true ∧ ctl.armed = true := by
  cases interest with
  | read =>
      change _ ↔ ctl.addForRead = some true ∧ _
      simp [addForRead_eq, Succeeds, armed]
  | write =>
      change _ ↔ addFor none ctl = some true ∧ _
      unfold addFor Succeeds armed
      split_ifs with modified
      · simp [modified]
      · simp [modified]

end EpollCtl

/-! ## The runs of the operations -/

section

variable {User Own Local : Type}

/-- What an effect did: a registration has results that the operation does not see. -/
@[reducible] def Effect.Outcome (Own : Type) : Effect User Local → Type
  | .register _ _ => EpollCtl
  | effect => effect.Reply Own

def Effect.reply : ∀ effect : Effect User Local, effect.Outcome Own → effect.Reply Own
  | .register _ _, _ => ()
  | .syscall _, answer => answer
  | .overlapped, _ => ()
  | .success, succeeded => succeeded
  | .startTimer _, _ => ()
  | .perform _, value => value
  | .spawn _, _ => ()

/-- What happens on the run of a coroutine. -/
abbrev Occurs (User Own Local : Type) :=
  Occurrence (Effect.Outcome Own : Effect User Local → Type)

/-- The registration, where the occurrence is one. -/
def Occurrence.registration : Occurs User Own Local → Option (Interest × EpollCtl)
  | .performed (.register interest _) ctl => some (interest, ctl)
  | _ => none

def Occurrence.arms (occurrence : Occurs User Own Local) : Bool :=
  occurrence.registration.any fun registration => registration.2.armed

/-- The coroutine is suspended in `kWait` only where a descriptor was armed since it
last ran; `armed` tells whether one is, and `state` is `m_state`. -/
def ParkedArmed : Bool → ScheduleType → List (Occurs User Own Local) → Prop
  | _, _, [] => True
  | armed, state, .performed effect outcome :: events =>
      ParkedArmed (armed || Occurrence.arms (.performed effect outcome)) state events
  | armed, _, .waited :: events => ParkedArmed armed .wait events
  | armed, state, .suspended :: events =>
      (state = .wait → armed = true) ∧ ParkedArmed false .run events

/-- The coroutine does not suspend any more and returns an error. -/
def CompletesWithError (events : List (Occurs User Own Local)) (last : Option (Result Own)) :
    Prop :=
  .suspended ∉ events ∧ ∃ code, last = some (.error code)

/-- A run on which every registration returns whether the descriptor is armed, and
its operation suspends in `kWait` only if it is, and completes with an error
otherwise. -/
structure WakesSurely (events : List (Occurs User Own Local)) (last : Option (Result Own)) :
    Prop where
  returned : ∀ occurrence ∈ events, ∀ interest ctl,
    occurrence.registration = some (interest, ctl) → ctl.returned interest = some ctl.armed
  parked : ParkedArmed false .run events
  fails : ∀ before interest sock ctl after,
    events = before ++ .performed (.register interest sock) ctl :: after →
      ctl.armed = false → CompletesWithError after last

/-- Every registration on the run succeeds. -/
def AllSucceed (events : List (Occurs User Own Local)) : Prop :=
  ∀ occurrence ∈ events, ∀ interest ctl,
    occurrence.registration = some (interest, ctl) → ctl.Succeeds interest

/-! ## A registration is followed by a suspension -/

variable {program : User → UserInstr User Own Local}
variable {events : List (Occurs User Own Local)} {last : Option (Result Own)}

variable (program) in
/-- The runs of a coroutine of the library. -/
abbrev Code.HasRun
    (code : Code User Own)
    (events : List (Occurs User Own Local))
    (last : Option (Result Own)) : Prop :=
  Runs (Code.instr program) Effect.reply code events last

/-- Only a coroutine on its way to suspension registers. -/
theorem Code.exists_park_of_register
    {code : Code User Own} {interest : Interest} {sock : SocketT} {next : Unit → Code User Own}
    (registers : code.instr program = .perform (.register interest sock) next) :
    ∃ steps after, ∀ reply, next reply = .park steps after := by
  cases code with
  | user here =>
      rw [Code.instr] at registers
      cases runs : program here with
      | _ =>
          rw [runs] at registers
          cases registers
  | park steps after =>
      obtain ⟨-, rest, -, -, -, -, continues⟩ := Code.parkInstr_eq_perform registers
      exact ⟨rest, after, continues⟩
  | tcpReadExactly sock buffer size totalRead =>
      rw [Code.instr] at registers
      split_ifs at registers
  | tcpWrite sock buffer size sent =>
      rw [Code.instr] at registers
      split_ifs at registers
      cases registers
  | _ => cases registers

theorem Code.suspends_of_park
    {steps : List (ParkStep SocketT)} {next : Code User Own}
    (run : (Code.park steps next).HasRun program events last) :
    .suspended ∈ events := by
  induction steps generalizing events with
  | nil =>
      obtain ⟨rest, rfl, -⟩ := run.of_suspend rfl
      exact List.mem_cons_self
  | cons step steps inductionHypothesis =>
      cases step with
      | wait =>
          obtain ⟨rest, rfl, afterwards⟩ := run.of_wait rfl
          exact List.mem_cons_of_mem _ (inductionHypothesis afterwards)
      | register interest sock =>
          obtain ⟨ctl, rest, rfl, afterwards⟩ := run.of_perform rfl
          exact List.mem_cons_of_mem _ (inductionHypothesis afterwards)
      | startTimer delay =>
          obtain ⟨outcome, rest, rfl, afterwards⟩ := run.of_perform rfl
          exact List.mem_cons_of_mem _ (inductionHypothesis afterwards)

theorem Code.suspends_of_register
    {code : Code User Own} {interest : Interest} {sock : SocketT} {ctl : EpollCtl}
    (run : code.HasRun program (.performed (.register interest sock) ctl :: events) last) :
    .suspended ∈ events := by
  cases run with
  | perform registers run =>
      obtain ⟨steps, after, continues⟩ := Code.exists_park_of_register registers
      rw [continues] at run
      exact Code.suspends_of_park run

/-- The operations do not look at what the registration returns, so it has to succeed. -/
theorem WakesSurely.allSucceed
    {code : Code User Own}
    (surely : WakesSurely events last)
    (run : code.HasRun program events last) :
    AllSucceed events := by
  intro occurrence present interest ctl registers
  have returned := surely.returned occurrence present interest ctl registers
  obtain ⟨before, after, rfl⟩ := List.append_of_mem present
  obtain ⟨later, rest⟩ := run.of_append
  match occurrence, registers with
  | .performed (.register _ sock) _, rfl =>
      have armed : ctl.armed = true := by
        by_contra unarmed
        have fails := surely.fails before interest sock ctl after rfl (by simpa using unarmed)
        exact fails.1 (Code.suspends_of_register rest)
      exact (ctl.succeeds_iff interest).2 ⟨armed ▸ returned, armed⟩

/-! ## Every suspension comes after a registration -/

/-- Wherever an operation goes, it registers before it suspends; `registered` tells
whether it has since it last ran. -/
def Code.Registers : Bool → Code User Own → Prop
  | _, .user _ => False
  | registered, .syscall _ next => ∀ answer, (next answer).Registers registered
  | registered, .overlapped next => next.Registers registered
  | registered, .park steps next =>
      (registered = true ∨ ∃ interest sock, .register interest sock ∈ steps) ∧
        next.Registers false
  | registered, .success next => ∀ success, (next success).Registers registered
  | _, _ => True

section

variable {registered : Bool}

theorem Code.registers_ite
    {condition : Prop} [Decidable condition] {first second : Code User Own}
    (positive : first.Registers registered) (negative : second.Registers registered) :
    (if condition then first else second).Registers registered := by
  split_ifs
  · exact positive
  · exact negative

theorem Code.registers_park
    {steps : List (ParkStep SocketT)} {interest : Interest} {sock : SocketT} {next : Code User Own}
    (registers : .register interest sock ∈ steps)
    (later : next.Registers false) :
    (Code.park steps next).Registers registered :=
  ⟨Or.inr ⟨interest, sock, registers⟩, later⟩

/-- An effect that arms nothing. -/
theorem Code.Registers.or_false
    {code : Code User Own}
    (registers : code.Registers registered) :
    code.Registers (registered || false) := by
  rwa [Bool.or_false]

/-- A step that does not register leaves the registration to the rest. -/
theorem Code.Registers.tail
    {step : ParkStep SocketT} {steps : List (ParkStep SocketT)} {next : Code User Own}
    (registers : (Code.park (step :: steps) next).Registers registered)
    (other : ∀ interest sock, ParkStep.register interest sock ≠ step) :
    (Code.park steps next).Registers registered := by
  obtain ⟨done | ⟨interest, sock, present⟩, later⟩ := registers
  · exact ⟨Or.inl done, later⟩
  · exact registers_park (List.mem_of_ne_of_mem (other interest sock) present) later

theorem Code.registers_returnSocket (sock : SocketT) :
    (Code.returnSocket sock : Code User Own).Registers registered := fun _ => trivial

theorem Code.registers_connect (endpoint : Address) :
    (Code.connect endpoint : Code User Own).Registers registered := by
  intro created
  refine registers_ite trivial fun set => ?_
  refine registers_ite (fun _ => trivial) fun flags => ?_
  refine registers_ite (fun _ => trivial) fun set => ?_
  refine registers_ite (fun _ => trivial) fun result => ?_
  refine registers_ite trivial (registers_ite (registers_returnSocket _) ?_)
  apply registers_park List.mem_cons_self
  intro success
  exact registers_ite (registers_returnSocket _) trivial

theorem Code.registers_accept (sock : BaseSocket) :
    (Code.accept sock : Code User Own).Registers registered := by
  apply registers_park List.mem_cons_self
  intro accepted
  exact registers_ite (registers_returnSocket _) trivial

theorem Code.registers_received
    {operation : Operation SocketT} {sock : SocketT} {again : Code User Own}
    (registers : .register .read sock ∈ operation.parkSteps)
    (later : again.Registers false)
    (result : Answer) :
    (Code.received operation again result).Registers registered := by
  refine registers_ite trivial (registers_ite trivial ?_)
  exact registers_park registers fun success => registers_ite later trivial

theorem Code.registers_sentSome
    (sock : BaseSocket) (buffer : Address) (size sent : Nat) (result : Answer) :
    (Code.sentSome sock buffer size sent result : Code User Own).Registers registered := by
  refine registers_ite trivial (registers_ite ?_ trivial)
  apply registers_park (List.mem_cons_of_mem _ List.mem_cons_self)
  intro success
  exact registers_ite trivial trivial

theorem Code.registers_sentTo
    (writeSock : SocketT) (endpoint buffer : Address) (size : Nat) (result : Answer) :
    (Code.sentTo writeSock endpoint buffer size result : Code User Own).Registers registered := by
  refine registers_ite (fun _ => trivial) (registers_ite (fun _ => trivial) ?_)
  apply registers_park (List.mem_cons_of_mem _ List.mem_cons_self)
  intro success
  exact registers_ite trivial fun _ => trivial

/-- The operations that register their descriptors themselves. -/
def Start.registers : Start User → Bool
  | .user _ => false
  | .tcpReadExactly _ _ _ => false
  | _ => true

theorem Start.registers_code
    (start : Start User)
    (registers : start.registers = true) :
    (start.code : Code User Own).Registers registered := by
  cases start with
  | user here => cases registers
  | connect endpoint => exact Code.registers_connect endpoint
  | accept sock => exact Code.registers_accept sock
  | udpWrite sock endpoint buffer size => exact fun writeSock => Code.registers_ite trivial trivial
  | _ => trivial

/-! ### One step -/

variable {code next : Code User Own}

theorem Code.Registers.perform
    {effect : Effect User Local} {next : effect.Reply Own → Code User Own}
    (registers : code.Registers registered)
    (performs : code.instr program = .perform effect next)
    (outcome : effect.Outcome Own)
    (succeeds : ∀ interest ctl,
      Occurrence.registration (.performed effect outcome) = some (interest, ctl) →
        ctl.armed = true) :
    (next (effect.reply outcome)).Registers
      (registered || Occurrence.arms (.performed effect outcome)) := by
  cases code with
  | user here => exact registers.elim
  | syscall call next =>
      cases performs
      exact (registers outcome).or_false
  | overlapped next =>
      cases performs
      exact Code.Registers.or_false registers
  | park steps after =>
      cases steps with
      | nil => cases performs
      | cons step steps =>
          cases step with
          | wait => cases performs
          | register interest sock =>
              cases performs
              refine ⟨Or.inl ?_, registers.2⟩
              simp [Occurrence.arms, Occurrence.registration, succeeds interest outcome rfl]
          | startTimer delay =>
              cases performs
              exact (registers.tail (by simp)).or_false
  | success next =>
      cases performs
      exact (registers outcome).or_false
  | ret value => cases performs
  | tcpRead sock buffer size =>
      cases performs
      have again : (Code.tcpRead sock buffer size : Code User Own).Registers false := trivial
      exact registers_received (List.mem_cons_of_mem _ List.mem_cons_self) again outcome
  | tcpReadExactly sock buffer size totalRead =>
      rw [Code.instr] at performs
      split_ifs at performs
  | tcpWrite sock buffer size sent =>
      rw [Code.instr] at performs
      split_ifs at performs
      cases performs
      exact registers_sentSome sock buffer size sent outcome
  | udpRead sock buffer size =>
      cases performs
      have again : (Code.udpRead sock buffer size : Code User Own).Registers false := trivial
      exact registers_received (List.mem_cons_of_mem _ List.mem_cons_self) again outcome
  | udpWrite writeSock endpoint buffer size =>
      cases performs
      exact registers_sentTo writeSock endpoint buffer size outcome

theorem Code.Registers.wait
    (registers : code.Registers registered)
    (waits : code.instr program = .wait next) :
    next.Registers registered := by
  obtain ⟨here, rfl⟩ | ⟨rest, after, rfl, rfl⟩ := Code.instr_eq_wait waits
  · exact registers.elim
  · exact registers.tail (by simp)

/-- An operation that suspends has registered. -/
theorem Code.Registers.suspend
    (registers : code.Registers registered)
    (suspends : code.instr program = .suspend next) :
    registered = true ∧ next.Registers false := by
  obtain ⟨here, rfl⟩ | rfl := Code.instr_eq_suspend suspends
  · exact registers.elim
  · obtain ⟨done | ⟨interest, sock, absent⟩, later⟩ := registers
    · exact ⟨done, later⟩
    · cases absent

/-! ### The whole run -/

theorem AllSucceed.tail
    {occurrence : Occurs User Own Local}
    (succeed : AllSucceed (occurrence :: events)) :
    AllSucceed events :=
  fun later present => succeed later (List.mem_cons_of_mem _ present)

theorem Code.Registers.parkedArmed
    (registers : code.Registers registered)
    (run : code.HasRun program events last)
    (succeed : AllSucceed events)
    (state : ScheduleType) :
    ParkedArmed registered state events := by
  induction run generalizing registered state with
  | ret _ => trivial
  | rest suspends => exact ⟨fun _ => (registers.suspend suspends).1, trivial⟩
  | perform performs _ inductionHypothesis =>
      have armed : ∀ interest ctl, Occurrence.registration _ = some (interest, ctl) →
          ctl.armed = true := fun interest ctl isRegistration =>
        ((ctl.succeeds_iff interest).1
          (succeed _ List.mem_cons_self interest ctl isRegistration)).2
      exact inductionHypothesis (registers.perform performs _ armed) succeed.tail state
  | wait waits _ inductionHypothesis =>
      exact inductionHypothesis (registers.wait waits) succeed.tail .wait
  | resume suspends _ inductionHypothesis =>
      obtain ⟨isRegistered, later⟩ := registers.suspend suspends
      exact ⟨fun _ => isRegistered, inductionHypothesis later succeed.tail .run⟩

end

theorem AllSucceed.wakesSurely
    {code : Code User Own}
    (succeed : AllSucceed events)
    (registers : code.Registers false)
    (run : code.HasRun program events last) :
    WakesSurely events last where
  returned occurrence present interest ctl isRegistration := by
    obtain ⟨returned, armed⟩ := (ctl.succeeds_iff interest).1
      (succeed occurrence present interest ctl isRegistration)
    rw [returned, armed]
  parked := registers.parkedArmed run succeed .run
  fails before interest sock ctl after split unarmed := by
    have present : .performed (.register interest sock) ctl ∈ events :=
      split ▸ List.mem_append_right before List.mem_cons_self
    have armed := ((ctl.succeeds_iff interest).1 (succeed _ present interest ctl rfl)).2
    cases armed.symm.trans unarmed

variable (program) in
/-- `add_for_read` always returns whether the descriptor is armed; `add_for_write` and
`add_for_all` do where `EPOLL_CTL_MOD` fails.  An operation parks only with a wake
source, and completes with an error otherwise, exactly on the runs on which every
registration succeeds. -/
theorem wakesSurely_iff :
    (∀ ctl : EpollCtl, ctl.addForRead = some ctl.armed) ∧
    (∀ ctl : EpollCtl,
      (ctl.addForWrite = some ctl.armed ↔ ctl.modify ≠ 0) ∧
      (ctl.addForAll = some ctl.armed ↔ ctl.modify ≠ 0)) ∧
    ∀ (start : Start User) (events : List (Occurs User Own Local)) (last : Option (Result Own)),
      start.registers = true →
      start.code.HasRun program events last →
      (WakesSurely events last ↔ AllSucceed events) := by
  refine ⟨EpollCtl.addForRead_eq,
    fun ctl => ⟨EpollCtl.addFor_none_iff ctl, EpollCtl.addFor_none_iff ctl⟩,
    fun start events last registers run => ⟨fun surely => surely.allSucceed run,
      fun succeed => succeed.wakesSurely (start.registers_code registers) run⟩⟩

end

/-- A read that waits for its bytes. -/
def waitingRead : List (Occurs Empty Empty Empty) :=
  [.performed (.syscall (.recv 3 4096 16)) ⟨-1, .wouldBlock⟩, .performed .overlapped (), .waited,
    .performed (.register .read 3) ⟨-1, 0⟩, .suspended, .performed .success true,
    .performed (.syscall (.recv 3 4096 16)) ⟨5, .other⟩]

theorem waitingRead_hasRun :
    (Code.tcpRead ⟨3, 4⟩ 4096 16).HasRun Empty.elim waitingRead (some (.size 5)) :=
  .perform rfl (.perform rfl (.wait rfl (.perform rfl (.resume rfl (.perform rfl (.perform rfl
    (.ret rfl)))))))

theorem wakesSurely_waitingRead : WakesSurely waitingRead (some (.size 5)) := by
  refine ((wakesSurely_iff Empty.elim).2.2 (.tcpRead ⟨3, 4⟩ 4096 16) _ _ rfl
    waitingRead_hasRun).2 ?_
  simp [AllSucceed, waitingRead, Occurrence.registration, EpollCtl.Succeeds]

/-- A registration without a `return`, and a read that is parked though neither call
of `epoll_ctl` has succeeded. -/
theorem not_wakesSurely_unarmed :
    EpollCtl.addForWrite ⟨0, 0⟩ = none ∧
      ¬∀ (events : List (Occurs Empty Empty Empty)) (last : Option (Result Empty)),
        (Start.tcpRead ⟨3, 4⟩ 4096 16 : Start Empty).code.HasRun Empty.elim events last →
          WakesSurely events last := by
  refine ⟨rfl, fun surely => ?_⟩
  have parked := (surely
    [.performed (.syscall (.recv 3 4096 16)) ⟨-1, .wouldBlock⟩, .performed .overlapped (), .waited,
      .performed (.register .read 3) ⟨-1, -1⟩, .suspended] none
    (.perform rfl (.perform rfl (.wait rfl (.perform rfl (.rest rfl)))))).parked
  cases parked.1 rfl

end Cppio
