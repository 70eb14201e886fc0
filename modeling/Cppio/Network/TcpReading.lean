import Cppio.Library.ByteOrder
import Cppio.Reactor.Executions

/-!
# Receiving into a buffer

The executions of `tcp_socket::read` and `read_exactly` for all answers of the
kernel, and what they leave of an incoming stream in the buffer.
-/

namespace Cppio

variable {User Own Local : Type}

/-- What the kernel has done for a reader. -/
structure Receipt where
  memory : Memory
  /-- How many bytes of the stream it has handed out. -/
  consumed : Nat
  /-- A `recv` or a wait has failed. -/
  failed : Bool

namespace Occurrence

/-- How many bytes a `recv` has handed out. -/
def received : Occurs User Own Local → Nat
  | .performed (.syscall (.recv _ _ _)) answer => answer.result.toNat
  | _ => 0

/-- A `recv` has failed, or epoll has reported an error. -/
def readFails : Occurs User Own Local → Bool
  | .performed (.syscall (.recv _ _ _)) answer => answer.failed
  | .performed .success success => !success
  | _ => false

/-- Every `recv` hands out the next bytes of the stream. -/
def receive (stream : Nat → UInt8) (receipt : Receipt) : Occurs User Own Local → Receipt
  | .performed (.syscall (.recv _ start _)) answer =>
      { memory := receipt.memory.store start
          (Memory.load stream receipt.consumed answer.result.toNat)
        consumed := receipt.consumed + answer.result.toNat
        failed := receipt.failed || answer.failed }
  | .performed .success success => { receipt with failed := receipt.failed || !success }
  | _ => receipt

/-- Every `recv` is on the socket and writes in the buffer. -/
def ReceivesIn (sock : SocketT) (buffer size : Nat) : Occurs User Own Local → Prop
  | .performed (.syscall (.recv own start length)) _ =>
      own = sock ∧ buffer ≤ start ∧ start + length ≤ buffer + size
  | _ => True

/-- Every `recv` is this one. -/
def ReceivesAt (sock : SocketT) (start length : Nat) : Occurs User Own Local → Prop
  | .performed (.syscall call) _ => call = .recv sock start length
  | _ => True

end Occurrence

section

variable {occurrence : Occurs User Own Local}

theorem received_of_quiet (quiet : occurrence.Quiet) : occurrence.received = 0 := by
  unfold Occurrence.received
  split
  · exact quiet.elim
  · rfl

theorem readFails_of_quiet (quiet : occurrence.Quiet) : occurrence.readFails = false := by
  unfold Occurrence.readFails
  split
  · exact quiet.elim
  · exact quiet.elim
  · rfl

theorem receivesAt_of_quiet
    {sock : SocketT} {start length : Nat} (quiet : occurrence.Quiet) :
    occurrence.ReceivesAt sock start length := by
  unfold Occurrence.ReceivesAt
  split
  · exact quiet.elim
  · trivial

end

/-! ## The loop of `read` -/

/-- Where `read` is until a `recv` or a wait ends it. -/
inductive Reads (sock : BaseSocket) (buffer size : Nat) : Code User Own → Prop
  | loop : Reads sock buffer size (.tcpRead sock buffer size)
  | overlapped (steps : List (ParkStep SocketT)) :
      Reads sock buffer size (.overlapped (.park steps (.success fun success =>
        if success then .tcpRead sock buffer size else Code.fail .closed)))
  | park (steps : List (ParkStep SocketT)) :
      Reads sock buffer size (.park steps (.success fun success =>
        if success then .tcpRead sock buffer size else Code.fail .closed))
  | success :
      Reads sock buffer size (.success fun success =>
        if success then .tcpRead sock buffer size else Code.fail .closed)

/-- Where the next occurrence leads a read. -/
inductive ReadStep (sock : BaseSocket) (buffer size : Nat) (occurrence : Occurs User Own Local) :
    Code User Own → Prop
  | fails (failed : occurrence.readFails = true) (nothing : occurrence.received = 0) :
      ReadStep sock buffer size occurrence (.ret (.error .closed))
  | receives (succeeded : occurrence.readFails = false) (some : 0 < occurrence.received) :
      ReadStep sock buffer size occurrence (.ret (.size occurrence.received))
  | goesOn {code : Code User Own} (succeeded : occurrence.readFails = false)
      (nothing : occurrence.received = 0) (reads : Reads sock buffer size code) :
      ReadStep sock buffer size occurrence code

variable {program : User → UserInstr User Own Local}
variable {sock : BaseSocket} {buffer size : Nat} {code next : Code User Own}

theorem Reads.perform
    {effect : Effect User Local} {next : effect.Reply Own → Code User Own}
    (reads : Reads sock buffer size code)
    (performs : code.instr program = .perform effect next)
    (outcome : effect.Outcome Own) :
    Occurrence.ReceivesAt sock.socket buffer size (.performed effect outcome) ∧
      ReadStep sock buffer size (.performed effect outcome) (next (effect.reply outcome)) := by
  cases reads with
  | loop =>
      cases performs
      refine ⟨rfl, ?_⟩
      change ReadStep sock buffer size _ (Code.received _ _ (outcome : Answer))
      unfold Code.received
      split_ifs with failed positive
      · exact .fails failed (Int.toNat_of_nonpos (Answer.failed_neg failed).le)
      · exact .receives (Bool.eq_false_of_not_eq_true failed) (Int.pos_iff_toNat_pos.mp positive)
      · refine .goesOn (Bool.eq_false_of_not_eq_true failed) ?_ (.overlapped _)
        exact Int.toNat_of_nonpos (Int.not_lt.mp positive)
  | overlapped steps =>
      cases performs
      exact ⟨trivial, .goesOn rfl rfl (.park steps)⟩
  | park steps =>
      obtain ⟨quiet, rest, parks⟩ := Code.park_performs performs outcome
      rw [parks]
      exact ⟨receivesAt_of_quiet quiet,
        .goesOn (readFails_of_quiet quiet) (received_of_quiet quiet) (.park rest)⟩
  | success =>
      cases performs
      refine ⟨trivial, ?_⟩
      change ReadStep sock buffer size _ (if (outcome : Bool) then _ else _)
      split_ifs with succeeded
      · exact .goesOn (by simpa [Occurrence.readFails] using succeeded) rfl .loop
      · exact .fails (by simpa [Occurrence.readFails] using succeeded) rfl

theorem Reads.wait
    (reads : Reads sock buffer size code) (waits : code.instr program = .wait next) :
    Reads sock buffer size next := by
  cases reads with
  | park steps =>
      obtain ⟨rest, -, rfl⟩ := Code.parkInstr_eq_wait waits
      exact .park rest
  | _ => cases waits

theorem Reads.suspend
    (reads : Reads sock buffer size code) (suspends : code.instr program = .suspend next) :
    Reads sock buffer size next := by
  cases reads with
  | park steps =>
      obtain ⟨-, rfl⟩ := Code.parkInstr_eq_suspend suspends
      exact .success
  | _ => cases suspends

theorem Reads.ne_await
    {child : Code User Own} {after : Result Own → Code User Own}
    (reads : Reads sock buffer size code) :
    code.instr program ≠ .await child after := by
  cases reads with
  | park steps => exact Code.park_ne_await
  | _ => exact nofun

theorem Reads.ne_ret
    {value : Result Own} (reads : Reads sock buffer size code) :
    code.instr program ≠ .ret value := by
  cases reads with
  | park steps => exact Code.park_ne_ret
  | _ => exact nofun

/-! ## The loop of `read_exactly` -/

section

variable {occurrence : Occurs User Own Local} {start length : Nat}

/-- What a `recv` does for a reader, or an occurrence that is none. -/
theorem receive_eq
    (stream : Nat → UInt8) (receipt : Receipt)
    (here : occurrence.ReceivesAt sock.socket start length) :
    occurrence.receive stream receipt =
      { memory := receipt.memory.store start
          (Memory.load stream receipt.consumed occurrence.received)
        consumed := receipt.consumed + occurrence.received
        failed := receipt.failed || occurrence.readFails } := by
  cases occurrence with
  | performed effect outcome =>
      cases effect with
      | syscall call =>
          obtain rfl : call = .recv sock.socket start length := here
          rfl
      | _ => simp [Occurrence.receive, Occurrence.received, Occurrence.readFails]
  | _ => simp [Occurrence.receive, Occurrence.received, Occurrence.readFails]

theorem received_le
    (here : occurrence.ReceivesAt sock.socket start length) (legal : occurrence.Legal) :
    occurrence.received ≤ length := by
  cases occurrence with
  | performed effect outcome =>
      cases effect with
      | syscall call =>
          obtain rfl : call = .recv sock.socket start length := here
          exact Int.toNat_le.mpr legal
      | _ => exact Nat.zero_le length
  | _ => exact Nat.zero_le length

theorem receivesIn_of_receivesAt
    (here : occurrence.ReceivesAt sock.socket start length)
    (after : buffer ≤ start) (before : start + length ≤ buffer + size) :
    occurrence.ReceivesIn sock.socket buffer size := by
  cases occurrence with
  | performed effect outcome =>
      cases effect with
      | syscall call =>
          obtain rfl : call = .recv sock.socket start length := here
          exact ⟨rfl, after, before⟩
      | _ => trivial
  | _ => trivial

end

/-- Where `read_exactly` is when `total` bytes are read, and whether it has failed. -/
inductive ReadsExactly (sock : BaseSocket) (buffer size : Nat) :
    List (Result Own → Code User Own) → Code User Own → Nat → Bool → Prop
  | loop {total : Nat} (within : total ≤ size) :
      ReadsExactly sock buffer size [] (.tcpReadExactly sock buffer size total) total false
  | reads {total : Nat} {code : Code User Own} (less : total < size)
      (reads : Reads sock (buffer + total) (size - total) code) :
      ReadsExactly sock buffer size [Code.readSome sock buffer size total] code total false
  | received {total read : Nat} (within : total + read ≤ size) :
      ReadsExactly sock buffer size [Code.readSome sock buffer size total]
        (.ret (.size read)) (total + read) false
  | failed {total before : Nat} (within : total ≤ size) :
      ReadsExactly sock buffer size [Code.readSome sock buffer size before]
        (.ret (.error .closed)) total true
  | closed {total : Nat} (within : total ≤ size) :
      ReadsExactly sock buffer size [] (.ret (.error .closed)) total true

theorem ReadStep.readsExactly
    {total : Nat} {occurrence : Occurs User Own Local}
    (step : ReadStep sock (buffer + total) (size - total) occurrence code)
    (less : total < size)
    (bounded : occurrence.received ≤ size - total) :
    ReadsExactly sock buffer size [Code.readSome sock buffer size total] code
      (total + occurrence.received) occurrence.readFails := by
  cases step with
  | fails failed nothing =>
      rw [failed, nothing]
      exact .failed less.le
  | receives succeeded some =>
      rw [succeeded]
      exact .received (by omega)
  | goesOn succeeded nothing reads =>
      rw [succeeded, nothing]
      exact .reads less reads

/-- What `read_exactly` has received, from this memory and position of the stream on,
when `total` bytes are read. -/
def receiptOf
    (stream : Nat → UInt8) (memory : Memory) (consumed buffer total : Nat) (failed : Bool) :
    Receipt where
  memory := memory.store buffer (Memory.load stream consumed total)
  consumed := consumed + total
  failed := failed

theorem receive_receiptOf
    {occurrence : Occurs User Own Local} {total length : Nat}
    (stream : Nat → UInt8) (memory : Memory) (consumed : Nat)
    (here : occurrence.ReceivesAt sock.socket (buffer + total) length) :
    occurrence.receive stream (receiptOf stream memory consumed buffer total false) =
      receiptOf stream memory consumed buffer (total + occurrence.received)
        occurrence.readFails := by
  have stores := memory.store_append buffer (Memory.load stream consumed total)
    (Memory.load stream (consumed + total) occurrence.received)
  rw [Memory.length_load, Memory.load_append] at stores
  rw [receive_eq stream _ here, receiptOf, receiptOf, stores, Nat.add_assoc, Bool.false_or]

/-- The buffer holds what `read_exactly` has counted. -/
def ReadsInOrder
    (stream : Nat → UInt8) (memory : Memory) (consumed : Nat)
    (sock : BaseSocket) (buffer size : Nat)
    (nexts : List (Result Own → Code User Own)) (code : Code User Own)
    (receipt : Receipt) : Prop :=
  ∃ total failed, ReadsExactly sock buffer size nexts code total failed ∧
    receipt = receiptOf stream memory consumed buffer total failed

theorem keepsInvariant_readsExactly
    (program : User → UserInstr User Own Local)
    (stream : Nat → UInt8) (memory : Memory) (consumed : Nat)
    (sock : BaseSocket) (buffer size : Nat) :
    KeepsInvariant (Code.instr program) Effect.reply (Occurrence.receive stream)
      (fun _ => Occurrence.Legal) (fun _ => Occurrence.ReceivesIn sock.socket buffer size)
      (ReadsInOrder stream memory consumed sock buffer size) where
  ret := by
    rintro nexts next code value receipt ⟨total, failed, exactly, rfl⟩ returns
    cases exactly with
    | reads less reads => exact absurd returns reads.ne_ret
    | received within =>
        cases returns
        exact ⟨_, false, .loop within, rfl⟩
    | failed within =>
        cases returns
        exact ⟨total, true, .closed within, rfl⟩
  await := by
    rintro nexts code child next receipt ⟨total, failed, exactly, rfl⟩ awaits
    cases exactly with
    | loop within =>
        rw [Code.instr] at awaits
        split_ifs at awaits with more
        cases awaits
        exact ⟨total, false, .reads (Nat.lt_of_le_of_ne within more) .loop, rfl⟩
    | reads less reads => exact absurd awaits reads.ne_await
    | _ => cases awaits
  perform := by
    rintro nexts code effect next outcome receipt ⟨total, failed, exactly, rfl⟩ performs legal
    cases exactly with
    | loop within =>
        rw [Code.instr] at performs
        split_ifs at performs
    | reads less reads =>
        obtain ⟨here, step⟩ := reads.perform performs outcome
        have bounded := received_le here legal
        rw [receive_receiptOf stream memory consumed here]
        exact ⟨receivesIn_of_receivesAt here (Nat.le_add_right _ _) (by omega),
          _, _, step.readsExactly less bounded, rfl⟩
    | _ => cases performs
  wait := by
    rintro nexts code next receipt ⟨total, failed, exactly, rfl⟩ waits -
    cases exactly with
    | loop within =>
        rw [Code.instr] at waits
        split_ifs at waits
    | reads less reads => exact ⟨trivial, total, false, .reads less (reads.wait waits), rfl⟩
    | _ => cases waits
  suspend := by
    rintro nexts code next receipt ⟨total, failed, exactly, rfl⟩ suspends -
    cases exactly with
    | loop within =>
        rw [Code.instr] at suspends
        split_ifs at suspends
    | reads less reads =>
        exact ⟨trivial, total, false, .reads less (reads.suspend suspends), rfl⟩
    | _ => cases suspends

theorem ReadsExactly.le
    {nexts : List (Result Own → Code User Own)} {total : Nat} {failed : Bool}
    (exactly : ReadsExactly sock buffer size nexts code total failed) :
    total ≤ size := by
  cases exactly with
  | loop within => exact within
  | reads less reads => exact less.le
  | received within => exact within
  | failed within => exact within
  | closed within => exact within

/-- `read_exactly` returns where everything is read or a read has failed. -/
theorem ReadsExactly.returns
    {total : Nat} {failed : Bool} {value : Result Own}
    (exactly : ReadsExactly sock buffer size [] code total failed)
    (returned : code.instr program = .ret value) :
    value = .size 0 ∧ total = size ∧ failed = false ∨ value = .error .closed ∧ failed = true := by
  cases exactly with
  | loop within =>
      rw [Code.instr] at returned
      split_ifs at returned with more
      cases returned
      exact Or.inl ⟨rfl, not_not.mp more, rfl⟩
  | closed within =>
      cases returned
      exact Or.inr ⟨rfl, rfl⟩

/-! ## What `read_exactly` does -/

/-- What the kernel has done for a reader after these occurrences. -/
def receiveAll
    (stream : Nat → UInt8) (memory : Memory) (consumed : Nat)
    (events : List (Occurs User Own Local)) : Receipt :=
  events.foldl (Occurrence.receive stream) ⟨memory, consumed, false⟩

theorem receive_failed
    (stream : Nat → UInt8) (receipt : Receipt) (occurrence : Occurs User Own Local) :
    (occurrence.receive stream receipt).failed = (receipt.failed || occurrence.readFails) := by
  cases occurrence with
  | performed effect outcome =>
      cases effect with
      | syscall call =>
          cases call with
          | recv sock start length => rfl
          | _ => exact (Bool.or_false _).symm
      | success => rfl
      | _ => exact (Bool.or_false _).symm
  | _ => exact (Bool.or_false _).symm

theorem foldl_receive_failed
    (stream : Nat → UInt8) (receipt : Receipt) (events : List (Occurs User Own Local)) :
    (events.foldl (Occurrence.receive stream) receipt).failed = true ↔
      receipt.failed = true ∨ ∃ occurrence ∈ events, occurrence.readFails = true := by
  induction events generalizing receipt with
  | nil => simp
  | cons occurrence events inductionHypothesis =>
      rw [List.foldl_cons, inductionHypothesis, receive_failed, Bool.or_eq_true,
        List.exists_mem_cons_iff, or_assoc]

/-- `read_exactly` puts the next bytes of the stream into the buffer. -/
structure Reassembles
    (stream : Nat → UInt8) (memory : Memory) (consumed : Nat)
    (sock : BaseSocket) (buffer size : Nat)
    (events : List (Occurs User Own Local)) (last : Option (Result Own)) : Prop where
  within : ∀ occurrence ∈ events, occurrence.ReceivesIn sock.socket buffer size
  /-- Nothing is written outside the buffer, and no more is consumed than it holds. -/
  outside : ∀ address, address < buffer ∨ buffer + size ≤ address →
    (receiveAll stream memory consumed events).memory address = memory address
  consumes : (receiveAll stream memory consumed events).consumed ≤ consumed + size
  /-- It succeeds only with the whole buffer, -/
  succeeds : ∀ read, last = some (.size read) →
    (receiveAll stream memory consumed events).memory.load buffer size =
        Memory.load stream consumed size ∧
      (receiveAll stream memory consumed events).consumed = consumed + size
  /-- and fails with `Closed` if a read fails. -/
  returns : ∀ value, last = some value → value = .size 0 ∨ value = .error .closed
  closed : ∀ value, last = some value →
    (value = .error .closed ↔ ∃ occurrence ∈ events, occurrence.readFails = true)

/-- What a run of `read_exactly` has received, and what it returns. -/
theorem received_of_executes
    {partly : Prop} (stream : Nat → UInt8) (memory : Memory) (consumed : Nat)
    {events : List (Occurs User Own Local)} {last : Option (Result Own)}
    (run : (Code.readExactly sock buffer size).Advances partly program [] events last)
    (legal : ∀ occurrence ∈ events, occurrence.Legal) :
    (∀ occurrence ∈ events, occurrence.ReceivesIn sock.socket buffer size) ∧
      ∃ total ≤ size, ∃ failed, receiveAll stream memory consumed events =
          receiptOf stream memory consumed buffer total failed ∧
        ∀ value, last = some value →
          value = .size 0 ∧ total = size ∧ failed = false ∨
            value = .error .closed ∧ failed = true := by
  have start : ReadsInOrder stream memory consumed sock buffer size []
      (Code.readExactly sock buffer size : Code User Own) ⟨memory, consumed, false⟩ :=
    ⟨0, false, .loop (Nat.zero_le size), by rw [receiptOf]; simp [Memory.load]⟩
  have guarantees := (keepsInvariant_readsExactly program stream memory consumed sock buffer
    size).guarantees run (along_of_forall_mem legal _) start
  refine ⟨guarantees.along.forall_mem fun _ _ receives => receives, ?_⟩
  cases last with
  | none =>
      obtain ⟨_, _, total, failed, exactly, receipt⟩ := guarantees.unfinished rfl
      refine ⟨total, exactly.le, failed, receipt, fun value some => ?_⟩
      cases some
  | some value =>
      obtain ⟨_, ⟨total, failed, exactly, receipt⟩, returned⟩ := guarantees.finished value rfl
      refine ⟨total, exactly.le, failed, receipt, fun value' same => ?_⟩
      obtain rfl := Option.some.inj same
      exact exactly.returns returned

theorem receiptOf_memory_outside
    (stream : Nat → UInt8) (memory : Memory) (consumed : Nat) (failed : Bool)
    {total address : Nat} (le : total ≤ size)
    (outside : address < buffer ∨ buffer + size ≤ address) :
    (receiptOf stream memory consumed buffer total failed).memory address = memory address := by
  apply if_neg
  intro inside
  rw [Memory.length_load] at inside
  omega

theorem load_receiptOf
    (stream : Nat → UInt8) (memory : Memory) (consumed total : Nat) (failed : Bool) :
    (receiptOf stream memory consumed buffer total failed).memory.load buffer total =
      Memory.load stream consumed total :=
  Memory.load_store memory buffer (Memory.length_load _ _ _)

/-- For every stream, every answer of the kernel and every event of epoll. -/
theorem readExactly_reassembles
    (stream : Nat → UInt8) (memory : Memory) (consumed : Nat)
    {events : List (Occurs User Own Local)} {last : Option (Result Own)}
    (run : (Code.readExactly sock buffer size).Executes program [] events last)
    (legal : ∀ occurrence ∈ events, occurrence.Legal) :
    Reassembles stream memory consumed sock buffer size events last := by
  obtain ⟨within, total, le, failed, receipt, returns⟩ :=
    received_of_executes stream memory consumed run legal
  have any := foldl_receive_failed stream ⟨memory, consumed, false⟩ events
  change (receiveAll stream memory consumed events).failed = true ↔ _ at any
  rw [receipt] at any
  simp only [Bool.false_eq_true, false_or] at any
  constructor
  · exact within
  · intro address outside
    rw [receipt]
    exact receiptOf_memory_outside stream memory consumed failed le outside
  · rw [receipt]
    exact Nat.add_le_add_left le consumed
  · intro read some
    obtain ⟨-, rfl, -⟩ | ⟨closed, -⟩ := returns _ some
    · rw [receipt]
      exact ⟨load_receiptOf stream memory consumed _ failed, rfl⟩
    · cases closed
  · intro value some
    exact (returns value some).imp And.left And.left
  · intro value some
    rw [← any]
    obtain ⟨rfl, -, succeeded⟩ | ⟨rfl, fails⟩ := returns value some
    · change _ ↔ failed = true
      rw [succeeded]
      refine iff_of_false ?_ Bool.false_ne_true
      intro same
      cases same
    · exact iff_of_true rfl fails

/-- A read of five bytes that come in two parts. -/
def chunkedRead : List (Occurs Empty Empty Empty) :=
  [.performed (.syscall (.recv 3 4096 5)) ⟨2, .other⟩,
    .performed (.syscall (.recv 3 4098 3)) ⟨-1, .wouldBlock⟩, .performed .overlapped (), .waited,
    .performed (.register .read 3) ⟨0, 0⟩, .suspended, .performed .success true,
    .performed (.syscall (.recv 3 4098 3)) ⟨3, .other⟩]

theorem chunkedRead_executes :
    (Code.readExactly ⟨3, 4⟩ 4096 5).Executes Empty.elim [] chunkedRead (some (.size 0)) :=
  .await rfl (.perform rfl (.ret rfl (.await rfl (.perform rfl (.perform rfl (.wait rfl
    (.perform rfl (.resume rfl (.perform rfl (.perform rfl (.ret rfl (.finish rfl))))))))))))

theorem reassembles_chunkedRead :
    Reassembles (fun position => UInt8.ofNat position) (fun _ => 0) 10 ⟨3, 4⟩ 4096 5 chunkedRead
      (some (.size 0)) := by
  apply readExactly_reassembles _ _ _ chunkedRead_executes
  simp [chunkedRead, Occurrence.Legal]

end Cppio
