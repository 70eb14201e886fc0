import Cppio.Network.TcpReading

/-!
# What a hang-up leaves unread

Successive calls of `tcp_socket::read` on a socket whose bytes arrive at any time, up to
the first error.  The kernel queues the bytes and hands them out in order, and a `recv`
fails only where nothing is queued.  A wait ends with the events that epoll reports, of
which `epoll::run` keeps one flag: with `EPOLLERR` or `EPOLLHUP` among them the call
returns `Closed` and does not try `recv` again, so what came together with the hang-up
stays in the queue.
-/

namespace Cppio

variable {User Own Local : Type}

def epollIn : Nat := 0x001

def epollErr : Nat := 0x008

def epollHup : Nat := 0x010

/-- What `epoll::run` leaves in `success` for these `events`. -/
def epollSuccess (events : Nat) : Bool := events &&& (epollErr ||| epollHup) = 0

/-- What arrives before each occurrence, and what epoll reports to end a wait there. -/
structure IncomingScript where
  arrives : Nat → List UInt8
  reports : Nat → Nat

/-- The receiving side of a socket. -/
structure Incoming where
  /-- How many occurrences there were. -/
  index : Nat
  memory : Memory
  /-- Every byte that has arrived. -/
  arrived : List UInt8
  /-- The bytes that no `recv` has handed out. -/
  queue : List UInt8
  /-- `overlapped.success`. -/
  success : Bool
  /-- What had arrived when epoll reported a hang-up. -/
  hungUp : Option (List UInt8)
  /-- What was queued then. -/
  unread : List UInt8

namespace Incoming

def initial (memory : Memory) : Incoming where
  index := 0
  memory := memory
  arrived := []
  queue := []
  success := false
  hungUp := none
  unread := []

def arrive (script : IncomingScript) (incoming : Incoming) : Incoming :=
  { incoming with
    index := incoming.index + 1
    arrived := incoming.arrived ++ script.arrives incoming.index
    queue := incoming.queue ++ script.arrives incoming.index }

/-- `recv` hands out the first bytes of the queue. -/
def receive (start : Address) (count : Nat) (incoming : Incoming) : Incoming :=
  { incoming with
    memory := incoming.memory.store start (incoming.queue.take count)
    queue := incoming.queue.drop count }

/-- `epoll::run`, for an event of the socket. -/
def report (events : Nat) (incoming : Incoming) : Incoming :=
  if epollSuccess events then { incoming with success := true }
  else
    { incoming with
      success := false
      hungUp := incoming.hungUp.or (some incoming.arrived)
      unread := incoming.unread ++ incoming.queue }

/-- The receiving side after the occurrence. -/
def advance (script : IncomingScript) (incoming : Incoming) : Occurs User Own Local → Incoming
  | .performed (.syscall (.recv _ start _)) answer =>
      (incoming.arrive script).receive start answer.result.toNat
  | .performed .overlapped _ => { incoming.arrive script with success := false }
  | .suspended => (incoming.arrive script).report (script.reports incoming.index)
  | _ => incoming.arrive script

/-- What the kernel may answer.  A `recv` fails only where nothing is queued. -/
def Legal (script : IncomingScript) (incoming : Incoming) : Occurs User Own Local → Prop
  | .performed (.syscall (.recv _ _ size)) answer =>
      answer.result ≤ (min size (incoming.arrive script).queue.length : Nat) ∧
        (answer.failed = true → (incoming.arrive script).queue = [])
  | .performed .success success => success = incoming.success
  | _ => True

/-- A hang-up that is reported here finds nothing queued. -/
def HangsUpDrained (script : IncomingScript) (incoming : Incoming) : Occurs User Own Local → Prop
  | .suspended =>
      epollSuccess (script.reports incoming.index) = false → (incoming.arrive script).queue = []
  | _ => True

/-- The bytes that are due to the reader: what has arrived, up to the hang-up. -/
def due (incoming : Incoming) : List UInt8 := incoming.hungUp.getD incoming.arrived

end Incoming

/-- Successive calls of `read`, up to the first that returns an error, with what happens
on them and the bytes that they return. -/
inductive ReadCalls
    (program : User → UserInstr User Own Local) (script : IncomingScript) (sock : BaseSocket) :
    Incoming → List (Occurs User Own Local) → List UInt8 → Prop
  | closed {incoming : Incoming} {buffer size : Nat} {events : List (Occurs User Own Local)}
      {code : NetworkErrorCode}
      (run : (Code.read sock buffer size).Executes program [] events (some (.error code)))
      (legal : Along (Incoming.advance script) (Incoming.Legal script) incoming events) :
      ReadCalls program script sock incoming events []
  | next {incoming : Incoming} {buffer size count : Nat} {returned : List UInt8}
      {events later : List (Occurs User Own Local)}
      (run : (Code.read sock buffer size).Executes program [] events (some (.size count)))
      (legal : Along (Incoming.advance script) (Incoming.Legal script) incoming events)
      (calls : ReadCalls program script sock (events.foldl (Incoming.advance script) incoming)
        later returned) :
      ReadCalls program script sock incoming (events ++ later)
        ((events.foldl (Incoming.advance script) incoming).memory.load buffer count ++ returned)

/-! ## One call -/

/-- What the calls have returned and what is queued are what has arrived, and there was
no hang-up. -/
structure Connected (before : List UInt8) (incoming : Incoming) : Prop where
  conserved : before ++ incoming.queue = incoming.arrived
  connected : incoming.hungUp = none
  drained : incoming.unread = []

namespace Connected

variable {before : List UInt8} {incoming : Incoming}

theorem initial (memory : Memory) : Connected [] (.initial memory) := ⟨rfl, rfl, rfl⟩

theorem arrive (connected : Connected before incoming) (script : IncomingScript) :
    Connected before (incoming.arrive script) where
  conserved := by
    change before ++ (incoming.queue ++ _) = incoming.arrived ++ _
    rw [← connected.conserved, List.append_assoc]
  connected := connected.connected
  drained := connected.drained

/-- What a `recv` hands out is in the buffer. -/
theorem receive
    (connected : Connected before incoming) (start : Address) {count : Nat}
    (within : count ≤ incoming.queue.length) :
    Connected (before ++ (incoming.receive start count).memory.load start count)
      (incoming.receive start count) where
  conserved := by
    have loaded : (incoming.receive start count).memory.load start count =
        incoming.queue.take count :=
      Memory.load_store _ _ (List.length_take_of_le within)
    change _ ++ incoming.queue.drop count = incoming.arrived
    rw [loaded, List.append_assoc, List.take_append_drop, connected.conserved]
  connected := connected.connected
  drained := connected.drained

/-- A `recv` that hands out nothing. -/
theorem receive_zero (connected : Connected before incoming) (start : Address) :
    Connected before (incoming.receive start 0) :=
  ⟨connected.conserved, connected.connected, connected.drained⟩

theorem performed
    (connected : Connected before incoming) (script : IncomingScript)
    {effect : Effect User Local} {outcome : effect.Outcome Own}
    (quiet : Occurrence.Quiet (.performed effect outcome)) :
    Connected before (incoming.advance script (.performed effect outcome)) := by
  have arrived := connected.arrive script
  cases effect with
  | syscall call => exact quiet.elim
  | overlapped => exact ⟨arrived.conserved, arrived.connected, arrived.drained⟩
  | success => exact quiet.elim
  | register interest sock => exact arrived
  | startTimer delay => exact arrived
  | perform effect => exact arrived
  | spawn start => exact arrived

theorem due_eq (connected : Connected before incoming) (nothing : incoming.queue = []) :
    incoming.due = before ++ incoming.unread := by
  rw [Incoming.due, connected.connected, Option.getD_none, ← connected.conserved, nothing,
    connected.drained]

end Connected

/-- Where a call is that is made after these bytes have been returned. -/
inductive Receives (sock : BaseSocket) (buffer size : Nat) (before : List UInt8) :
    Code User Own → Incoming → Prop
  | loop {incoming : Incoming} (connected : Connected before incoming) :
      Receives sock buffer size before (.tcpRead sock buffer size) incoming
  | overlapped {incoming : Incoming} (connected : Connected before incoming)
      (steps : List (ParkStep SocketT)) :
      Receives sock buffer size before (.overlapped (.park steps (.success fun success =>
        if success then .tcpRead sock buffer size else Code.fail .closed))) incoming
  | park {incoming : Incoming} (connected : Connected before incoming)
      (steps : List (ParkStep SocketT)) :
      Receives sock buffer size before (.park steps (.success fun success =>
        if success then .tcpRead sock buffer size else Code.fail .closed)) incoming
  | ready {incoming : Incoming} (connected : Connected before incoming)
      (success : incoming.success = true) :
      Receives sock buffer size before (.success fun success =>
        if success then .tcpRead sock buffer size else Code.fail .closed) incoming
  | hungUp {incoming : Incoming} (hungUp : incoming.hungUp = some (before ++ incoming.unread))
      (success : incoming.success = false) :
      Receives sock buffer size before (.success fun success =>
        if success then .tcpRead sock buffer size else Code.fail .closed) incoming
  | received {incoming : Incoming} {count : Nat}
      (connected : Connected (before ++ incoming.memory.load buffer count) incoming) :
      Receives sock buffer size before (.ret (.size count)) incoming
  | closed {incoming : Incoming} (due : incoming.due = before ++ incoming.unread) :
      Receives sock buffer size before (Code.fail .closed) incoming

variable {program : User → UserInstr User Own Local} {script : IncomingScript}
variable {sock : BaseSocket} {buffer size : Nat} {before : List UInt8}

/-- The branches of the loop after `recv`. -/
theorem receives_received
    {incoming : Incoming} (connected : Connected before incoming) {answer : Answer}
    (bounded : answer.result ≤ (min size incoming.queue.length : Nat))
    (fails : answer.failed = true → incoming.queue = []) :
    Receives sock buffer size before
      (Code.received (.tcpRead sock.socket) (.tcpRead sock buffer size) answer : Code User Own)
      (incoming.receive buffer answer.result.toNat) := by
  unfold Code.received
  split_ifs with failed positive
  · rw [Int.toNat_of_nonpos (Answer.failed_neg failed).le]
    exact .closed ((connected.receive_zero buffer).due_eq (fails failed))
  · exact .received (connected.receive buffer (by omega))
  · rw [Int.toNat_of_nonpos (Int.not_lt.mp positive)]
    exact .overlapped (connected.receive_zero buffer) _

/-- What epoll reports at the end of a wait. -/
theorem receives_report
    {incoming : Incoming} (connected : Connected before incoming) (events : Nat) :
    Receives sock buffer size before
      (.success fun success =>
        if success then .tcpRead sock buffer size else Code.fail .closed : Code User Own)
      (incoming.report events) := by
  unfold Incoming.report
  split_ifs
  · exact .ready ⟨connected.conserved, connected.connected, connected.drained⟩ rfl
  · refine .hungUp ?_ rfl
    change incoming.hungUp.or (some incoming.arrived) = some (before ++ (_ ++ incoming.queue))
    rw [connected.connected, connected.drained, List.nil_append, connected.conserved,
      Option.none_or]

section

variable {incoming : Incoming} {code next : Code User Own}

theorem Receives.perform
    {effect : Effect User Local} {next : effect.Reply Own → Code User Own}
    {outcome : effect.Outcome Own}
    (receives : Receives sock buffer size before code incoming)
    (performs : code.instr program = .perform effect next)
    (legal : incoming.Legal script (.performed effect outcome)) :
    Receives sock buffer size before (next (effect.reply outcome))
      (incoming.advance script (.performed effect outcome)) := by
  cases receives with
  | loop connected =>
      cases performs
      exact receives_received (connected.arrive script) legal.1 legal.2
  | overlapped connected steps =>
      cases performs
      have quiet : Occurrence.Quiet (.performed .overlapped outcome : Occurs User Own Local) :=
        trivial
      exact .park (connected.performed script quiet) steps
  | park connected steps =>
      obtain ⟨quiet, rest, parks⟩ := Code.park_performs performs outcome
      rw [parks]
      exact .park (connected.performed script quiet) rest
  | ready connected success =>
      cases performs
      obtain rfl : outcome = true := legal.trans success
      exact .loop (connected.arrive script)
  | hungUp hungUp success =>
      cases performs
      obtain rfl : outcome = false := legal.trans success
      apply Receives.closed
      change incoming.hungUp.getD _ = before ++ incoming.unread
      rw [hungUp, Option.getD_some]
  | received connected => cases performs
  | closed due => cases performs

theorem Receives.of_wait
    (receives : Receives sock buffer size before code incoming)
    (waits : code.instr program = .wait next) :
    Receives sock buffer size before next (incoming.arrive script) := by
  obtain ⟨here, rfl⟩ | ⟨rest, after, rfl, rfl⟩ := Code.instr_eq_wait waits
  · cases receives
  · cases receives with
    | park connected steps => exact .park (connected.arrive script) rest

theorem Receives.of_suspend
    (receives : Receives sock buffer size before code incoming)
    (suspends : code.instr program = .suspend next) (events : Nat) :
    Receives sock buffer size before next ((incoming.arrive script).report events) := by
  obtain ⟨here, rfl⟩ | rfl := Code.instr_eq_suspend suspends
  · cases receives
  · cases receives with
    | park connected steps => exact receives_report (connected.arrive script) events

theorem Receives.ne_await
    {child : Code User Own} {next : Result Own → Code User Own}
    (receives : Receives sock buffer size before code incoming) :
    code.instr program ≠ .await child next := by
  intro awaits
  obtain ⟨here, rfl⟩ | ⟨_, _, _, _, -, rfl, -⟩ := Code.instr_eq_await awaits
  · cases receives
  · cases receives

end

theorem keepsInvariant_receives
    (program : User → UserInstr User Own Local) (script : IncomingScript)
    (sock : BaseSocket) (buffer size : Nat) (before : List UInt8) :
    KeepsInvariant (Code.instr program) Effect.reply (Incoming.advance script)
      (Incoming.Legal script) (fun _ _ => True)
      (fun nexts code incoming => nexts = [] ∧
        Receives sock buffer size before code incoming) where
  ret := fun holds _ => nomatch holds.1
  await := fun holds awaits => absurd awaits holds.2.ne_await
  perform := fun holds performs legal => ⟨trivial, holds.1, holds.2.perform performs legal⟩
  wait := fun holds waits _ => ⟨trivial, holds.1, holds.2.of_wait waits⟩
  suspend := fun holds suspends _ => ⟨trivial, holds.1, holds.2.of_suspend suspends _⟩

/-- Where a call is when it returns. -/
theorem receives_of_executes
    {incoming : Incoming} (connected : Connected before incoming)
    {events : List (Occurs User Own Local)} {value : Result Own}
    (run : (Code.read sock buffer size).Executes program [] events (some value))
    (legal : Along (Incoming.advance script) (Incoming.Legal script) incoming events) :
    ∃ code : Code User Own, code.instr program = .ret value ∧
      Receives sock buffer size before code (events.foldl (Incoming.advance script) incoming) := by
  have guarantees := (keepsInvariant_receives program script sock buffer size before).guarantees
    run legal ⟨rfl, .loop connected⟩
  obtain ⟨code, ⟨-, receives⟩, returns⟩ := guarantees.finished value rfl
  exact ⟨code, returns, receives⟩

/-! ## The calls together -/

/-- What is due after the calls: what they have returned, and what a hang-up left unread. -/
theorem ReadCalls.due_eq
    {incoming : Incoming} {events : List (Occurs User Own Local)} {returned : List UInt8}
    (calls : ReadCalls program script sock incoming events returned)
    (connected : Connected before incoming) :
    (events.foldl (Incoming.advance script) incoming).due =
      before ++ returned ++ (events.foldl (Incoming.advance script) incoming).unread := by
  induction calls generalizing before with
  | closed run legal =>
      obtain ⟨code, returns, receives⟩ := receives_of_executes connected run legal
      rw [List.append_nil]
      cases receives with
      | park connected steps => exact absurd returns Code.park_ne_ret
      | closed due => exact due
      | _ => cases returns
  | next run legal _ inductionHypothesis =>
      obtain ⟨code, returns, receives⟩ := receives_of_executes connected run legal
      rw [List.foldl_append, ← List.append_assoc]
      cases receives with
      | park connected steps => exact absurd returns Code.park_ne_ret
      | received connected =>
          cases returns
          exact inductionHypothesis connected
      | _ => cases returns

namespace Incoming

theorem unread_advance_iff
    (script : IncomingScript) (incoming : Incoming) (occurrence : Occurs User Own Local) :
    (incoming.advance script occurrence).unread = [] ↔
      incoming.unread = [] ∧ incoming.HangsUpDrained script occurrence := by
  cases occurrence with
  | waited => exact (and_iff_left trivial).symm
  | suspended =>
      change ((incoming.arrive script).report (script.reports incoming.index)).unread = [] ↔
        incoming.unread = [] ∧ (epollSuccess (script.reports incoming.index) = false →
          (incoming.arrive script).queue = [])
      unfold report
      split_ifs with succeeded
      · exact (and_iff_left fun hangsUp => nomatch hangsUp.symm.trans succeeded).symm
      · rw [List.append_eq_nil_iff]
        exact and_congr_right' ⟨fun drained _ => drained, fun drained =>
          drained (Bool.eq_false_of_not_eq_true succeeded)⟩
  | performed effect outcome =>
      cases effect with
      | syscall call => cases call with | _ => exact (and_iff_left trivial).symm
      | _ => exact (and_iff_left trivial).symm

/-- Nothing is left unread exactly where every hang-up finds nothing queued. -/
theorem unread_foldl_iff
    (script : IncomingScript) (incoming : Incoming) (events : List (Occurs User Own Local)) :
    (events.foldl (advance script) incoming).unread = [] ↔
      incoming.unread = [] ∧ Along (advance script) (HangsUpDrained script) incoming events := by
  induction events generalizing incoming with
  | nil => exact (and_iff_left trivial).symm
  | cons occurrence events inductionHypothesis =>
      rw [List.foldl_cons, inductionHypothesis, unread_advance_iff, and_assoc]
      rfl

end Incoming

/-- The calls return all that is due exactly where no hang-up is reported while bytes
are queued. -/
theorem returned_eq_due_iff
    {memory : Memory} {events : List (Occurs User Own Local)} {returned : List UInt8}
    (calls : ReadCalls program script sock (.initial memory) events returned) :
    returned = (events.foldl (Incoming.advance script) (.initial memory)).due ↔
      Along (Incoming.advance script) (Incoming.HangsUpDrained script) (.initial memory)
        events := by
  rw [calls.due_eq (.initial memory), List.nil_append, List.self_eq_append_right,
    Incoming.unread_foldl_iff]
  exact and_iff_right rfl

/-- Five bytes. -/
def greeting : List UInt8 := [72, 101, 108, 108, 111]

/-- The bytes arrive in the first wait, which epoll ends with these events. -/
def greetingWith (events : Nat) : IncomingScript where
  arrives := fun index => if index = 4 then greeting else []
  reports := fun _ => events

/-- A call that finds nothing and waits. -/
def greetingWait (success : Bool) : List (Occurs Empty Empty Empty) :=
  [.performed (.syscall (.recv 3 4096 16)) ⟨-1, .wouldBlock⟩, .performed .overlapped (), .waited,
    .performed (.register .read 3) ⟨0, 0⟩, .suspended, .performed .success success]

/-- What happens where epoll reports the bytes and the connection fails afterwards. -/
def greetingRead : List (Occurs Empty Empty Empty) :=
  (greetingWait true ++ [.performed (.syscall (.recv 3 4096 16)) ⟨5, .other⟩]) ++
    [.performed (.syscall (.recv 3 4096 16)) ⟨-1, .other⟩]

/-- A program without coroutines of its own. -/
abbrev noProgram : Empty → UserInstr Empty Empty Empty := Empty.elim

theorem greeting_eq_due :
    greeting = (greetingRead.foldl (Incoming.advance (greetingWith epollIn))
      (.initial fun _ => 0)).due := by
  have first : (Code.read ⟨3, 4⟩ 4096 16).Executes noProgram []
      (greetingWait true ++ [.performed (.syscall (.recv 3 4096 16)) ⟨5, .other⟩])
      (some (.size 5)) :=
    .perform rfl (.perform rfl (.wait rfl (.perform rfl (.resume rfl (.perform rfl
      (.perform rfl (.finish rfl)))))))
  have second : (Code.read ⟨3, 4⟩ 4096 16).Executes noProgram []
      [.performed (.syscall (.recv 3 4096 16)) ⟨-1, .other⟩] (some (.error .closed)) :=
    .perform rfl (.finish rfl)
  have calls : ReadCalls noProgram (greetingWith epollIn) ⟨3, 4⟩ (.initial fun _ => 0)
      greetingRead greeting :=
    .next first
      ⟨⟨by decide, by decide⟩, trivial, trivial, trivial, trivial, rfl, ⟨by decide, by decide⟩,
        trivial⟩
      (.closed second ⟨⟨by decide, by decide⟩, trivial⟩)
  apply (returned_eq_due_iff calls).mpr
  exact ⟨trivial, trivial, trivial, trivial, fun hangsUp => absurd hangsUp (by decide), trivial,
    trivial, trivial, trivial⟩

/-- The same bytes, with a hang-up: the call that waits for them returns `Closed`. -/
theorem not_returned_eq_due_hangUp :
    ¬∀ events returned,
      ReadCalls noProgram (greetingWith (epollIn ||| epollHup)) ⟨3, 4⟩ (.initial fun _ => 0)
          events returned →
        returned = (events.foldl (Incoming.advance (greetingWith (epollIn ||| epollHup)))
          (.initial fun _ => 0)).due := by
  intro all
  have run : (Code.read ⟨3, 4⟩ 4096 16).Executes noProgram [] (greetingWait false)
      (some (.error .closed)) :=
    .perform rfl (.perform rfl (.wait rfl (.perform rfl (.resume rfl (.perform rfl
      (.finish rfl))))))
  have legal : Along (Incoming.advance (greetingWith (epollIn ||| epollHup)))
      (Incoming.Legal (greetingWith (epollIn ||| epollHup))) (.initial fun _ => 0)
      (greetingWait false) :=
    ⟨⟨by decide, by decide⟩, trivial, trivial, trivial, trivial, rfl, trivial⟩
  have lost := all _ _ (.closed run legal)
  exact absurd lost (by decide)

end Cppio
