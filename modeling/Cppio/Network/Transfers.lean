import Cppio.Reactor.Executions

/-!
# What the sizes of the operations count

The reads and the writes return a `size_t`.  On every execution it is the number of
bytes that the call has moved between the kernel and the buffer, but `read_exactly`
returns zero for every size.
-/

namespace Cppio

variable {User Own Local : Type}

namespace Syscall

/-- How many bytes the call moves, where this is its answer. -/
def moves (answer : Answer) : Syscall → Nat
  | .recv _ _ _ => answer.result.toNat
  | .send _ _ _ => answer.result.toNat
  | .recvfrom _ _ _ => answer.result.toNat
  | .sendto _ _ _ _ => answer.result.toNat
  | _ => 0

end Syscall

namespace Occurrence

/-- How many bytes have been moved, after the occurrence. -/
def move (moved : Nat) : Occurs User Own Local → Nat
  | .performed (.syscall call) answer => moved + call.moves answer
  | _ => moved

end Occurrence

/-- How many bytes a run moves between the kernel and the buffer. -/
def moved (events : List (Occurs User Own Local)) : Nat :=
  events.foldl Occurrence.move 0

theorem move_of_quiet
    (moved : Nat) {occurrence : Occurs User Own Local} (quiet : occurrence.Quiet) :
    occurrence.move moved = moved := by
  unfold Occurrence.move
  split
  · exact quiet.elim
  · rfl

theorem move_add (first moved : Nat) (occurrence : Occurs User Own Local) :
    occurrence.move (first + moved) = first + occurrence.move moved := by
  unfold Occurrence.move
  split
  · exact Nat.add_assoc _ _ _
  · rfl

/-- The operations that return how many bytes they move. -/
inductive Start.Transfers : Start User → Prop
  | tcpRead (sock : BaseSocket) (buffer : Address) (size : Nat) :
      Transfers (.tcpRead sock buffer size)
  | tcpReadExactly (sock : BaseSocket) (buffer : Address) (size : Nat) :
      Transfers (.tcpReadExactly sock buffer size)
  | tcpWrite (sock : BaseSocket) (buffer : Address) (size : Nat) :
      Transfers (.tcpWrite sock buffer size)
  | udpRead (sock : BaseSocket) (buffer : Address) (size : Nat) :
      Transfers (.udpRead sock buffer size)
  | udpWrite (sock : BaseSocket) (endpoint buffer : Address) (size : Nat) :
      Transfers (.udpWrite sock endpoint buffer size)

/-- The operation is not a `read_exactly` that is asked for bytes. -/
def Start.ReportsMoved : Start User → Prop
  | .tcpReadExactly _ _ size => size = 0
  | _ => True

/-! ## Where a size is returned -/

namespace Code

/-- Wherever the code goes after having moved so many bytes, a size that it returns is
the number of all the bytes moved. -/
def Counts : Code User Own → Nat → Prop
  | .syscall call next, moved => ∀ answer, (next answer).Counts (moved + call.moves answer)
  | .overlapped next, moved => next.Counts moved
  | .park _ next, moved => next.Counts moved
  | .success next, moved => ∀ success, (next success).Counts moved
  | .ret (.size size), moved => size = moved
  | .ret _, _ => True
  | .tcpRead _ _ _, moved => moved = 0
  | .tcpWrite _ _ _ sent, moved => sent = moved
  | .udpRead _ _ _, moved => moved = 0
  | .udpWrite _ _ _ _, moved => moved = 0
  | .tcpReadExactly _ _ _ _, _ => False
  | .user _, _ => False

theorem counts_ite
    {condition : Prop} [Decidable condition] {first second : Code User Own} {moved : Nat}
    (counts : condition → first.Counts moved) (counts' : ¬condition → second.Counts moved) :
    (if condition then first else second).Counts moved := by
  split_ifs with holds
  · exact counts holds
  · exact counts' holds

theorem counts_fail (code : NetworkErrorCode) (moved : Nat) :
    (fail code : Code User Own).Counts moved := trivial

theorem counts_received
    (operation : Operation SocketT) {again : Code User Own} (counts : again.Counts 0)
    (answer : Answer) :
    (received operation again answer).Counts answer.result.toNat := by
  apply counts_ite
  · exact fun _ => counts_fail .closed _
  · intro _
    apply counts_ite
    · exact fun _ => rfl
    · intro nothing success
      rw [Int.toNat_of_nonpos (Int.not_lt.mp nothing)]
      exact counts_ite (fun _ => counts) fun _ => counts_fail .closed _

theorem counts_sentSome
    (sock : BaseSocket) (buffer size sent : Nat) (answer : Answer) :
    (sentSome sock buffer size sent answer : Code User Own).Counts
      (sent + answer.result.toNat) := by
  have counted : (if answer.result > 0 then sent + answer.result.toNat else sent) =
      sent + answer.result.toNat := by
    split_ifs <;> omega
  unfold sentSome
  simp only [counted]
  apply counts_ite
  · exact fun _ => counts_fail .closed _
  · intro _
    apply counts_ite
    · exact fun _ success => counts_ite (fun _ => rfl) fun _ => counts_fail .closed _
    · exact fun _ => rfl

theorem counts_sentTo
    (writeSock : SocketT) (endpoint buffer size : Nat) (answer : Answer) :
    (sentTo writeSock endpoint buffer size answer : Code User Own).Counts
      answer.result.toNat := by
  apply counts_ite
  · exact fun _ _ => counts_fail .closed _
  · intro _
    apply counts_ite
    · exact fun _ _ => rfl
    · intro nothing success
      rw [Int.toNat_of_nonpos (Int.not_lt.mp nothing)]
      exact counts_ite (fun _ => rfl) fun _ _ => counts_fail .closed _

variable {program : User → UserInstr User Own Local}
variable {code : Code User Own} {moved : Nat}

theorem Counts.ret
    {value : Result Own}
    (counts : code.Counts moved) (returns : code.instr program = .ret value) :
    (Code.ret value : Code User Own).Counts moved := by
  obtain ⟨here, rfl⟩ | rfl | ⟨sock, buffer, size, rfl, rfl⟩ |
    ⟨sock, buffer, size, sent, -, rfl, rfl⟩ := instr_eq_ret returns
  · exact counts.elim
  · exact counts
  · exact counts.elim
  · exact counts

theorem Counts.ne_await
    {child : Code User Own} {next : Result Own → Code User Own} (counts : code.Counts moved) :
    code.instr program ≠ .await child next := by
  intro awaits
  obtain ⟨here, rfl⟩ | ⟨sock, buffer, size, totalRead, -, rfl, -⟩ := instr_eq_await awaits
  · exact counts.elim
  · exact counts.elim

theorem Counts.perform
    {effect : Effect User Local} {next : effect.Reply Own → Code User Own}
    (counts : code.Counts moved) (performs : code.instr program = .perform effect next)
    (outcome : effect.Outcome Own) :
    (next (effect.reply outcome)).Counts
      (Occurrence.move moved (.performed effect outcome)) := by
  cases code with
  | user here => exact counts.elim
  | syscall call after =>
      cases performs
      exact counts outcome
  | overlapped after =>
      cases performs
      exact counts
  | park steps after =>
      obtain ⟨quiet, rest, parks⟩ := park_performs performs outcome
      rw [move_of_quiet moved quiet, parks]
      exact counts
  | success after =>
      cases performs
      exact counts outcome
  | ret value => cases performs
  | tcpRead sock buffer size =>
      cases performs
      obtain rfl : moved = 0 := counts
      have again : (tcpRead sock buffer size : Code User Own).Counts 0 := rfl
      have answered := counts_received (.tcpRead sock.socket) again outcome
      rwa [← Nat.zero_add (Int.toNat _)] at answered
  | tcpReadExactly sock buffer size totalRead => exact counts.elim
  | tcpWrite sock buffer size sent =>
      rw [instr] at performs
      split_ifs at performs
      cases performs
      obtain rfl : sent = moved := counts
      exact counts_sentSome sock buffer size sent outcome
  | udpRead sock buffer size =>
      cases performs
      obtain rfl : moved = 0 := counts
      have again : (udpRead sock buffer size : Code User Own).Counts 0 := rfl
      have answered := counts_received (.udpRead sock.socket) again outcome
      rwa [← Nat.zero_add (Int.toNat _)] at answered
  | udpWrite writeSock endpoint buffer size =>
      cases performs
      obtain rfl : moved = 0 := counts
      change (sentTo writeSock endpoint buffer size outcome : Code User Own).Counts
        (0 + Int.toNat _)
      rw [Nat.zero_add]
      exact counts_sentTo writeSock endpoint buffer size outcome

theorem Counts.wait
    {next : Code User Own}
    (counts : code.Counts moved) (waits : code.instr program = .wait next) :
    next.Counts moved := by
  obtain ⟨here, rfl⟩ | ⟨rest, after, rfl, rfl⟩ := instr_eq_wait waits
  · exact counts.elim
  · exact counts

theorem Counts.suspend
    {next : Code User Own}
    (counts : code.Counts moved) (suspends : code.instr program = .suspend next) :
    next.Counts moved := by
  obtain ⟨here, rfl⟩ | rfl := instr_eq_suspend suspends
  · exact counts.elim
  · exact counts

/-- An operation that awaits nothing counts what it moves. -/
theorem keepsInvariant_counts (program : User → UserInstr User Own Local) :
    KeepsInvariant (instr program) Effect.reply Occurrence.move
      (fun _ _ => True) (fun _ _ => True)
      (fun nexts (code : Code User Own) moved => nexts = [] ∧ code.Counts moved) where
  ret := fun holds _ => nomatch holds.1
  await := fun holds awaits => absurd awaits holds.2.ne_await
  perform := fun holds performs _ => ⟨trivial, holds.1, holds.2.perform performs _⟩
  wait := fun holds waits _ => ⟨trivial, holds.1, holds.2.wait waits⟩
  suspend := fun holds suspends _ => ⟨trivial, holds.1, holds.2.suspend suspends⟩

/-! ## The loop of `read_exactly` -/

/-- Where `read_exactly` is when so many bytes have been moved. -/
inductive CountsExactly (sock : BaseSocket) (buffer size : Nat) :
    List (Result Own → Code User Own) → Code User Own → Nat → Prop
  | loop (totalRead : Nat) :
      CountsExactly sock buffer size [] (.tcpReadExactly sock buffer size totalRead) totalRead
  | reads {totalRead moved : Nat} {code : Code User Own} (counts : code.Counts moved) :
      CountsExactly sock buffer size [readSome sock buffer size totalRead] code
        (totalRead + moved)
  | failed (moved : Nat) : CountsExactly sock buffer size [] (fail .closed) moved

theorem CountsExactly.readSome
    {sock : BaseSocket} {buffer size totalRead : Nat} {value : Result Own}
    (counts : (Code.ret value : Code User Own).Counts moved) :
    CountsExactly sock buffer size []
      (Code.readSome sock buffer size totalRead value : Code User Own) (totalRead + moved) := by
  cases value with
  | size read =>
      obtain rfl : read = moved := counts
      exact .loop (totalRead + read)
  | _ => exact .failed _

theorem keepsInvariant_countsExactly
    (program : User → UserInstr User Own Local) (sock : BaseSocket) (buffer size : Nat) :
    KeepsInvariant (instr program) Effect.reply Occurrence.move
      (fun _ _ => True) (fun _ _ => True) (CountsExactly sock buffer size) where
  ret := by
    rintro nexts next code value moved exactly returns
    cases exactly with
    | reads counts => exact CountsExactly.readSome (counts.ret returns)
  await := by
    rintro nexts code child next moved exactly awaits
    cases exactly with
    | loop totalRead =>
        rw [instr] at awaits
        split_ifs at awaits
        cases awaits
        have counts : (.tcpRead sock (buffer + moved) (size - moved) : Code User Own).Counts 0 :=
          rfl
        exact .reads counts
    | reads counts => exact absurd awaits counts.ne_await
    | failed moved => cases awaits
  perform := by
    rintro nexts code effect next outcome moved exactly performs -
    refine ⟨trivial, ?_⟩
    cases exactly with
    | loop totalRead =>
        rw [instr] at performs
        split_ifs at performs
    | @reads totalRead moved _ counts =>
        rw [move_add]
        exact .reads (counts.perform performs outcome)
    | failed moved => cases performs
  wait := by
    rintro nexts code next moved exactly waits -
    refine ⟨trivial, ?_⟩
    cases exactly with
    | loop totalRead =>
        rw [instr] at waits
        split_ifs at waits
    | reads counts => exact .reads (counts.wait waits)
    | failed moved => cases waits
  suspend := by
    rintro nexts code next moved exactly suspends -
    refine ⟨trivial, ?_⟩
    cases exactly with
    | loop totalRead =>
        rw [instr] at suspends
        split_ifs at suspends
    | reads counts => exact .reads (counts.suspend suspends)
    | failed moved => cases suspends

end Code

variable {program : User → UserInstr User Own Local} {start : Start User}

/-- An operation other than `read_exactly` counts from its start. -/
theorem counts_code
    (transfers : start.Transfers)
    (other : ∀ sock buffer size, start ≠ .tcpReadExactly sock buffer size) :
    (start.code : Code User Own).Counts 0 := by
  cases transfers with
  | tcpRead sock buffer size => rfl
  | tcpReadExactly sock buffer size => exact absurd rfl (other sock buffer size)
  | tcpWrite sock buffer size => rfl
  | udpRead sock buffer size => rfl
  | udpWrite sock endpoint buffer size =>
      intro writeSock
      exact Code.counts_ite (fun _ => trivial) fun _ => rfl

/-- `read_exactly` moves as many bytes as it is asked for, and returns zero. -/
theorem moved_readExactly
    {sock : BaseSocket} {buffer size count : Nat} {events : List (Occurs User Own Local)}
    (run : (Code.readExactly sock buffer size).Executes program [] events (some (.size count))) :
    moved events = size ∧ count = 0 := by
  have guarantees := (Code.keepsInvariant_countsExactly program sock buffer size).guarantees run
    (along_of_forall_mem (fun _ _ => trivial) 0) (.loop 0)
  obtain ⟨code, exactly, returns⟩ := guarantees.finished _ rfl
  change Code.CountsExactly sock buffer size [] code (moved events) at exactly
  generalize moved events = total at exactly
  cases exactly with
  | loop totalRead =>
      rw [Code.instr] at returns
      split_ifs at returns with whole
      cases returns
      exact ⟨not_not.mp whole, rfl⟩
  | failed moved => cases returns

/-- Any other operation returns how many bytes it has moved. -/
theorem moved_of_executes
    (transfers : start.Transfers) (reports : start.ReportsMoved)
    {events : List (Occurs User Own Local)} {size : Nat}
    (run : start.code.Executes program [] events (some (.size size))) :
    size = moved events := by
  by_cases exactly : ∃ sock buffer asked, start = .tcpReadExactly sock buffer asked
  · obtain ⟨sock, buffer, asked, rfl⟩ := exactly
    obtain ⟨whole, rfl⟩ := moved_readExactly run
    obtain rfl : asked = 0 := reports
    exact whole.symm
  · have other : ∀ sock buffer asked, start ≠ .tcpReadExactly sock buffer asked :=
      fun sock buffer asked same => exactly ⟨sock, buffer, asked, same⟩
    have guarantees := (Code.keepsInvariant_counts program).guarantees run
      (along_of_forall_mem (fun _ _ => trivial) 0) ⟨rfl, counts_code transfers other⟩
    obtain ⟨code, ⟨-, counts⟩, returns⟩ := guarantees.finished _ rfl
    exact counts.ret returns

/-- Where an operation succeeds, the size that it returns counts the bytes it has moved,
unless it is a `read_exactly` that was asked for bytes. -/
theorem size_eq_moved_iff
    (transfers : start.Transfers)
    {events : List (Occurs User Own Local)} {size : Nat}
    (run : start.code.Executes program [] events (some (.size size))) :
    size = moved events ↔ start.ReportsMoved := by
  constructor
  · intro counted
    cases transfers with
    | tcpReadExactly sock buffer asked =>
        obtain ⟨whole, rfl⟩ := moved_readExactly run
        exact whole.symm.trans counted.symm
    | _ => trivial
  · exact fun reports => moved_of_executes transfers reports run

/-- Five bytes that the kernel hands out at once. -/
def fiveBytesAtOnce : List (Occurs Empty Empty Empty) :=
  [.performed (.syscall (.recv 3 4096 5)) ⟨5, .other⟩]

theorem size_eq_moved_fiveBytesAtOnce :
    5 = moved fiveBytesAtOnce ↔
      (Start.tcpRead ⟨3, 4⟩ 4096 5 : Start Empty).ReportsMoved := by
  have run : (Code.read ⟨3, 4⟩ 4096 5).Executes Empty.elim [] fiveBytesAtOnce (some (.size 5)) :=
    .perform rfl (.finish rfl)
  exact size_eq_moved_iff (.tcpRead ⟨3, 4⟩ 4096 5) run

/-- `read_exactly` moves them as well, and returns zero. -/
theorem size_ne_moved_fiveBytesAtOnce :
    ¬∀ size, (Code.readExactly ⟨3, 4⟩ 4096 5).Executes Empty.elim [] fiveBytesAtOnce
      (some (.size size)) → size = moved fiveBytesAtOnce := by
  intro counts
  have run : (Code.readExactly ⟨3, 4⟩ 4096 5).Executes Empty.elim [] fiveBytesAtOnce
      (some (.size 0)) :=
    .await rfl (.perform rfl (.ret rfl (.finish rfl)))
  exact absurd (counts 0 run) (by decide)

end Cppio
