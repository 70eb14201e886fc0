import Cppio.Library.ByteOrder
import Cppio.Reactor.Executions

/-!
# Sending a buffer

The executions of `tcp_socket::write` for all answers of the kernel, and the bytes
that the kernel has accepted on them.
-/

namespace Cppio

variable {User Own Local : Type}

namespace Occurrence

/-- The bytes that the kernel has accepted, after the occurrence. -/
def accept (memory : Memory) (accepted : List UInt8) : Occurs User Own Local → List UInt8
  | .performed (.syscall (.send _ start _)) answer =>
      accepted ++ memory.load start answer.result.toNat
  | _ => accepted

/-- Every `send` is on the socket and reads in the buffer. -/
def SendsFrom (sock : SocketT) (buffer size : Nat) : Occurs User Own Local → Prop
  | .performed (.syscall (.send out start length)) _ =>
      out = sock ∧ buffer ≤ start ∧ start + length ≤ buffer + size
  | _ => True

end Occurrence

/-- The bytes that the kernel has accepted, concatenated. -/
def accepted (memory : Memory) (events : List (Occurs User Own Local)) : List UInt8 :=
  events.foldl (Occurrence.accept memory) []

theorem prefix_accept
    (memory : Memory) (bytes : List UInt8) (occurrence : Occurs User Own Local) :
    bytes <+: occurrence.accept memory bytes := by
  unfold Occurrence.accept
  split
  · exact List.prefix_append _ _
  · exact List.prefix_refl _

theorem accept_of_quiet
    (memory : Memory) (bytes : List UInt8) {occurrence : Occurs User Own Local}
    (quiet : occurrence.Quiet) :
    occurrence.accept memory bytes = bytes := by
  unfold Occurrence.accept
  split
  · exact quiet.elim
  · rfl

theorem sendsFrom_of_quiet
    (sock : SocketT) (buffer size : Nat) {occurrence : Occurs User Own Local}
    (quiet : occurrence.Quiet) :
    occurrence.SendsFrom sock buffer size := by
  unfold Occurrence.SendsFrom
  split
  · exact quiet.elim
  · trivial

theorem prefix_foldl_accept
    (memory : Memory) (bytes : List UInt8) (events : List (Occurs User Own Local)) :
    bytes <+: events.foldl (Occurrence.accept memory) bytes := by
  induction events generalizing bytes with
  | nil => exact List.prefix_refl _
  | cons occurrence events inductionHypothesis =>
      exact (prefix_accept memory bytes occurrence).trans (inductionHypothesis _)

theorem prefix_accepted
    (memory : Memory) {before events : List (Occurs User Own Local)}
    (earlier : before <+: events) :
    accepted memory before <+: accepted memory events := by
  obtain ⟨after, rfl⟩ := earlier
  unfold accepted
  rw [List.foldl_append]
  exact prefix_foldl_accept memory _ after

/-! ## The loop of `write` -/

/-- Where `write` is when the kernel has accepted the first `sent` bytes. -/
inductive Writes (sock : BaseSocket) (buffer size : Nat) : Code User Own → Nat → Prop
  | start : Writes sock buffer size (.write sock buffer size) 0
  | loop {sent : Nat} (within : sent ≤ size) :
      Writes sock buffer size (.tcpWrite sock buffer size sent) sent
  | park {sent : Nat} (less : sent < size) (steps : List (ParkStep SocketT)) :
      Writes sock buffer size (.park steps (.success fun success =>
        if success then .tcpWrite sock buffer size sent else Code.fail .closed)) sent
  | success {sent : Nat} (less : sent < size) :
      Writes sock buffer size (.success fun success =>
        if success then .tcpWrite sock buffer size sent else Code.fail .closed) sent
  | failed {sent : Nat} (less : sent < size) :
      Writes sock buffer size (Code.fail .closed) sent

theorem writes_sentSome
    {sock : BaseSocket} {buffer size sent : Nat} {answer : Answer}
    (less : sent < size)
    (legal : answer.result ≤ (size - sent : Nat)) :
    Writes sock buffer size (Code.sentSome sock buffer size sent answer : Code User Own)
      (sent + answer.result.toNat) := by
  unfold Code.sentSome
  by_cases failed : answer.failed = true
  · have negative := Answer.failed_neg failed
    rw [if_pos failed, Int.toNat_of_nonpos negative.le, Nat.add_zero]
    exact .failed less
  · have counted : (if answer.result > 0 then sent + answer.result.toNat else sent) =
        sent + answer.result.toNat := by
      split_ifs <;> omega
    rw [if_neg failed]
    simp only [counted]
    split_ifs with more
    · exact .park more _
    · exact .loop (by omega)

/-- The kernel has accepted the bytes that `write` has counted. -/
def WritesInOrder
    (memory : Memory) (sock : BaseSocket) (buffer size : Nat)
    (nexts : List (Result Own → Code User Own)) (code : Code User Own)
    (accepted : List UInt8) : Prop :=
  nexts = [] ∧ ∃ sent, Writes sock buffer size code sent ∧ accepted = memory.load buffer sent

theorem keepsInvariant_writes
    (program : User → UserInstr User Own Local)
    (memory : Memory) (sock : BaseSocket) (buffer size : Nat) :
    KeepsInvariant (Code.instr program) Effect.reply (Occurrence.accept memory)
      (fun _ => Occurrence.Legal) (fun _ => Occurrence.SendsFrom sock.outSocket buffer size)
      (WritesInOrder memory sock buffer size) where
  ret := fun holds _ => nomatch holds.1
  await := by
    rintro nexts code child next bytes ⟨-, sent, writes, -⟩ awaits
    obtain ⟨here, rfl⟩ | ⟨_, _, _, _, -, rfl, -⟩ := Code.instr_eq_await awaits
    · cases writes
    · cases writes
  perform := by
    rintro nexts code effect next outcome bytes ⟨rfl, sent, writes, rfl⟩ performs legal
    cases writes with
    | start =>
        cases performs
        exact ⟨trivial, rfl, 0, .loop (Nat.zero_le size), rfl⟩
    | loop within =>
        rw [Code.instr] at performs
        split_ifs at performs with less
        cases performs
        have inside : buffer + sent + (size - sent) ≤ buffer + size := by omega
        refine ⟨⟨rfl, Nat.le_add_right _ _, inside⟩, rfl, _, writes_sentSome less legal, ?_⟩
        exact memory.load_append buffer sent _
    | park less steps =>
        obtain ⟨quiet, rest, parks⟩ := Code.park_performs performs outcome
        rw [accept_of_quiet memory _ quiet, parks]
        exact ⟨sendsFrom_of_quiet _ _ _ quiet, rfl, sent, .park less rest, rfl⟩
    | success less =>
        cases performs
        refine ⟨trivial, rfl, sent, ?_, rfl⟩
        change Writes sock buffer size (if (outcome : Bool) then _ else _) sent
        split_ifs
        · exact .loop less.le
        · exact .failed less
    | failed less => cases performs
  wait := by
    rintro nexts code next bytes ⟨rfl, sent, writes, rfl⟩ waits -
    obtain ⟨here, rfl⟩ | ⟨rest, after, rfl, rfl⟩ := Code.instr_eq_wait waits
    · cases writes
    · cases writes with
      | park less steps => exact ⟨trivial, rfl, sent, .park less rest, rfl⟩
  suspend := by
    rintro nexts code next bytes ⟨rfl, sent, writes, rfl⟩ suspends -
    obtain ⟨here, rfl⟩ | rfl := Code.instr_eq_suspend suspends
    · cases writes
    · cases writes with
      | park less steps => exact ⟨trivial, rfl, sent, .success less, rfl⟩

/-! ## What a write does -/

/-- A write sends the buffer once and in order. -/
structure SendsOnce
    (memory : Memory) (sock : BaseSocket) (buffer size : Nat)
    (events : List (Occurs User Own Local)) (last : Option (Result Own)) : Prop where
  within : ∀ occurrence ∈ events, occurrence.SendsFrom sock.outSocket buffer size
  inOrder : ∀ before, before <+: events →
    accepted memory before <+: memory.load buffer size
  /-- It succeeds, with the size, if the whole buffer was accepted, -/
  succeeds : ∀ value, last = some value →
    (value = .size size ↔ accepted memory events = memory.load buffer size)
  /-- and fails otherwise. -/
  closed : ∀ value, last = some value → value ≠ .size size → value = .error .closed

theorem prefix_load (memory : Memory) (address : Nat) {less more : Nat} (le : less ≤ more) :
    memory.load address less <+: memory.load address more :=
  ⟨memory.load (address + less) (more - less), by rw [memory.load_append, Nat.add_sub_cancel' le]⟩

theorem Writes.le
    {sock : BaseSocket} {buffer size sent : Nat} {code : Code User Own}
    (writes : Writes sock buffer size code sent) :
    sent ≤ size := by
  cases writes with
  | start => exact Nat.zero_le size
  | loop within => exact within
  | park less steps => exact less.le
  | success less => exact less.le
  | failed less => exact less.le

/-- `write` returns where everything is sent or the connection is closed. -/
theorem Writes.returns
    {program : User → UserInstr User Own Local}
    {sock : BaseSocket} {buffer size sent : Nat} {code : Code User Own} {value : Result Own}
    (writes : Writes sock buffer size code sent)
    (returned : code.instr program = .ret value) :
    sent = size ∧ value = .size size ∨ sent < size ∧ value = .error .closed := by
  cases writes with
  | start => cases returned
  | loop within =>
      rw [Code.instr] at returned
      split_ifs at returned with less
      have whole : sent = size := Nat.le_antisymm within (Nat.le_of_not_lt less)
      cases returned
      exact Or.inl ⟨whole, by rw [whole]⟩
  | park less steps => exact absurd returned Code.park_ne_ret
  | success less => cases returned
  | failed less =>
      cases returned
      exact Or.inr ⟨less, rfl⟩

/-- What a run of `write` has sent, and what it returns. -/
theorem counted_of_executes
    {partly : Prop} {program : User → UserInstr User Own Local}
    (memory : Memory) {sock : BaseSocket} {buffer size : Nat}
    {events : List (Occurs User Own Local)} {last : Option (Result Own)}
    (run : (Code.write sock buffer size).Advances partly program [] events last)
    (legal : ∀ occurrence ∈ events, occurrence.Legal) :
    (∀ occurrence ∈ events, occurrence.SendsFrom sock.outSocket buffer size) ∧
      ∃ sent ≤ size, accepted memory events = memory.load buffer sent ∧
        ∀ value, last = some value →
          sent = size ∧ value = .size size ∨ sent < size ∧ value = .error .closed := by
  have guarantees := (keepsInvariant_writes program memory sock buffer size).guarantees run
    (along_of_forall_mem legal []) ⟨rfl, 0, .start, rfl⟩
  refine ⟨guarantees.along.forall_mem fun _ _ sends => sends, ?_⟩
  cases last with
  | none =>
      obtain ⟨_, _, -, sent, writes, bytes⟩ := guarantees.unfinished rfl
      exact ⟨sent, writes.le, bytes, nofun⟩
  | some value =>
      obtain ⟨_, ⟨-, sent, writes, bytes⟩, returned⟩ := guarantees.finished value rfl
      refine ⟨sent, writes.le, bytes, fun value' same => ?_⟩
      obtain rfl := Option.some.inj same
      exact writes.returns returned

/-- For every memory, every answer of the kernel and every event of epoll. -/
theorem write_sendsOnce
    {program : User → UserInstr User Own Local}
    (memory : Memory) {sock : BaseSocket} {buffer size : Nat}
    {events : List (Occurs User Own Local)} {last : Option (Result Own)}
    (run : (Code.write sock buffer size).Executes program [] events last)
    (legal : ∀ occurrence ∈ events, occurrence.Legal) :
    SendsOnce memory sock buffer size events last := by
  obtain ⟨within, sent, le, bytes, returns⟩ := counted_of_executes memory run legal
  refine ⟨within, fun before earlier => ?_, fun value some => ?_, fun value some differs => ?_⟩
  · exact (prefix_accepted memory earlier).trans (bytes ▸ prefix_load memory buffer le)
  · obtain ⟨rfl, rfl⟩ | ⟨less, rfl⟩ := returns value some
    · exact iff_of_true rfl bytes
    · refine iff_of_false ?_ fun whole => less.ne ?_
      · intro same
        cases same
      · simpa using congrArg List.length (bytes.symm.trans whole)
  · obtain ⟨-, same⟩ | ⟨-, closed⟩ := returns value some
    · exact absurd same differs
    · exact closed

/-- A write of ten bytes whose first `send` accepts four. -/
def partialWrite : List (Occurs Empty Empty Empty) :=
  [.performed .overlapped (), .performed (.syscall (.send 4 4096 10)) ⟨4, .other⟩, .waited,
    .performed (.register .write 4) ⟨-1, 0⟩, .suspended, .performed .success true,
    .performed (.syscall (.send 4 4100 6)) ⟨6, .other⟩]

theorem partialWrite_executes :
    (Code.write ⟨3, 4⟩ 4096 10).Executes Empty.elim [] partialWrite (some (.size 10)) :=
  Runs.execution (.perform rfl (.perform rfl (.wait rfl (.perform rfl (.resume rfl (.perform rfl
    (.perform rfl (.ret rfl))))))))

theorem sendsOnce_partialWrite :
    SendsOnce (fun _ => 7) ⟨3, 4⟩ 4096 10 partialWrite (some (.size 10)) := by
  apply write_sendsOnce _ partialWrite_executes
  simp [partialWrite, Occurrence.Legal]

end Cppio
