import Cppio.Network.Win32Operations
import Cppio.Task.Execution

/-!
# Sending a buffer on Win32

The executions of `tcp_socket::write` on Win32 on a script: for each `WSASend`, how it
is answered and what is reported of it when it completes.  Every send is started and
succeeds, and one that has something to send sends some of it.  `WSABUF::len` holds the
rest of the buffer in 32 bits, so a send never crosses a multiple of 2^32 that is left,
and once exactly such a multiple is left the sends are of zero bytes.
-/

namespace Cppio

namespace Win32

/-- `FALSE`. -/
def winFalse : Int := 0

/-- What `GetQueuedCompletionStatus` reports of an operation. -/
structure Packet where
  result : Int
  bytesTransferred : Nat
  deriving DecidableEq

/-- What `iocp::run` leaves in `overlapped`. -/
def Packet.completion (packet : Packet) : Completion where
  success := packet.result ≠ winFalse
  bytesTransferred := packet.bytesTransferred

/-- The answer of every `WSASend`, and the packet of its completion. -/
structure SendScript where
  answer : Nat → Answer
  packet : Nat → Packet

namespace SendScript

/-- How many bytes the first sends transfer. -/
def total (script : SendScript) : Nat → Nat
  | 0 => 0
  | count + 1 => script.total count + (script.packet count).bytesTransferred

/-- How the send of a `WSABUF` of this length turns out. -/
structure Sends (script : SendScript) (length index : Nat) : Prop where
  started :
    ¬((script.answer index).result = Code.socketError ∧ (script.answer index).error ≠ .ioPending)
  succeeds : (script.packet index).result ≠ winFalse
  within : (script.packet index).bytesTransferred ≤ length
  positive : 0 < length → 0 < (script.packet index).bytesTransferred

/-- Every send of the buffer turns out so, as long as some of the buffer is left. -/
def Legal (script : SendScript) (size : Nat) : Prop :=
  ∀ index, script.total index < size → script.Sends (wsaBufLen (size - script.total index)) index

end SendScript

/-- What a run of `write` has done. -/
structure SendProgress where
  sends : Nat
  /-- Where the last send started. -/
  start : Address
  /-- The ranges that were transferred. -/
  ranges : List (Address × Nat)

namespace SendProgress

def initial : SendProgress where
  sends := 0
  start := 0
  ranges := []

/-- The progress after the occurrence. -/
def advance (progress : SendProgress) : Occurrence Effect.Reply → SendProgress
  | .performed (.call (.wsaSend _ start _)) _ =>
      { progress with sends := progress.sends + 1, start := start }
  | .performed .completion completion =>
      { progress with ranges := progress.ranges ++ [(progress.start, completion.bytesTransferred)] }
  | _ => progress

end SendProgress

/-- The occurrence is as in the script. -/
def SendScript.Allows (script : SendScript) (progress : SendProgress) :
    Occurrence Effect.Reply → Prop
  | .performed (.call (.wsaSend _ _ _)) answer => answer = script.answer progress.sends
  | .performed .completion completion =>
      completion = (script.packet (progress.sends - 1)).completion
  | _ => True

/-- The runs of the code on the script. -/
structure WritesOn
    (script : SendScript)
    (code : Code)
    (progress : SendProgress)
    (events : List (Occurrence Effect.Reply))
    (last : Option Result) : Prop where
  run : Execution False Code.instr (fun _ outcome => outcome) [] code events last
  allowed : Along SendProgress.advance script.Allows progress events

/-- The ranges follow each other from one address to another. -/
def Consecutive : Address → List (Address × Nat) → Address → Prop
  | first, [], last => first = last
  | first, (start, length) :: ranges, last =>
      start = first ∧ Consecutive (first + length) ranges last

/-- `write` sends the whole buffer. -/
structure SendsWhole (script : SendScript) (sock : SocketT) (buffer : Address) (size : Nat) :
    Prop where
  completes : ∃ events value,
    WritesOn script (Code.write sock buffer size) .initial events (some value)
  covers : ∀ events value,
    WritesOn script (Code.write sock buffer size) .initial events (some value) →
      Consecutive buffer (events.foldl SendProgress.advance .initial).ranges (buffer + size)
  returns : ∀ events value,
    WritesOn script (Code.write sock buffer size) .initial events (some value) →
      value = .size size

/-! ## The loop of `write` -/

theorem Consecutive.append
    {first last : Address} {ranges : List (Address × Nat)}
    (consecutive : Consecutive first ranges last) (length : Nat) :
    Consecutive first (ranges ++ [(last, length)]) (last + length) := by
  induction ranges generalizing first with
  | nil =>
      obtain rfl : first = last := consecutive
      exact ⟨rfl, rfl⟩
  | cons range ranges inductionHypothesis =>
      obtain ⟨start, later⟩ := consecutive
      exact ⟨start, inductionHypothesis later⟩

theorem wsaBufLen_le (size : Nat) : wsaBufLen size ≤ size := Nat.mod_le size _

/-- Where `write` is, with what it has done. -/
inductive Writes (script : SendScript) (sock : SocketT) (buffer size : Nat) :
    Code → SendProgress → Prop
  | start : Writes script sock buffer size (Code.write sock buffer size) .initial
  | loop {index : Nat} {start : Address} {ranges : List (Address × Nat)}
      (within : script.total index ≤ size)
      (consecutive : Consecutive buffer ranges (buffer + script.total index)) :
      Writes script sock buffer size (.tcpWrite sock buffer size (script.total index))
        ⟨index, start, ranges⟩
  | wait {index : Nat} {ranges : List (Address × Nat)}
      (less : script.total index < size)
      (consecutive : Consecutive buffer ranges (buffer + script.total index)) :
      Writes script sock buffer size
        (.wait (.suspend (.completion fun completion =>
          if completion.success then
            .tcpWrite sock buffer size (script.total index + completion.bytesTransferred)
          else Code.fail .closed)))
        ⟨index + 1, buffer + script.total index, ranges⟩
  | suspend {index : Nat} {ranges : List (Address × Nat)}
      (less : script.total index < size)
      (consecutive : Consecutive buffer ranges (buffer + script.total index)) :
      Writes script sock buffer size
        (.suspend (.completion fun completion =>
          if completion.success then
            .tcpWrite sock buffer size (script.total index + completion.bytesTransferred)
          else Code.fail .closed))
        ⟨index + 1, buffer + script.total index, ranges⟩
  | completion {index : Nat} {ranges : List (Address × Nat)}
      (less : script.total index < size)
      (consecutive : Consecutive buffer ranges (buffer + script.total index)) :
      Writes script sock buffer size
        (.completion fun completion =>
          if completion.success then
            .tcpWrite sock buffer size (script.total index + completion.bytesTransferred)
          else Code.fail .closed)
        ⟨index + 1, buffer + script.total index, ranges⟩

variable {script : SendScript} {sock : SocketT} {buffer : Address} {size index : Nat}

/-- No send transfers more than is left. -/
theorem SendScript.Legal.total_succ_le
    (legal : script.Legal size) (less : script.total index < size) :
    script.total (index + 1) ≤ size := by
  have transferred := (legal index less).within
  have left := wsaBufLen_le (size - script.total index)
  rw [SendScript.total]
  omega

section

variable {code : Code} {progress : SendProgress}

theorem Writes.perform
    {effect : Effect} {next : effect.Reply → Code} {outcome : effect.Reply}
    (writes : Writes script sock buffer size code progress)
    (legal : script.Legal size)
    (performs : code.instr = .perform effect next)
    (allowed : script.Allows progress (.performed effect outcome)) :
    Writes script sock buffer size (next outcome)
      (progress.advance (.performed effect outcome)) := by
  cases writes with
  | start =>
      cases performs
      have entered : Writes script sock buffer size
          (.tcpWrite sock buffer size (script.total 0)) .initial :=
        .loop (Nat.zero_le size) rfl
      exact entered
  | @loop index start ranges within consecutive =>
      rw [Code.instr] at performs
      split_ifs at performs with less
      cases performs
      obtain rfl : outcome = script.answer index := allowed
      rw [Code.sentSome, if_neg (legal index less).started]
      exact .wait less consecutive
  | wait less consecutive => cases performs
  | suspend less consecutive => cases performs
  | @completion index ranges less consecutive =>
      cases performs
      obtain rfl : outcome = (script.packet index).completion := allowed
      have succeeded : (script.packet index).completion.success = true :=
        decide_eq_true (legal index less).succeeds
      have covered := consecutive.append (script.packet index).bytesTransferred
      rw [Nat.add_assoc] at covered
      change Writes script sock buffer size
        (if (script.packet index).completion.success then _ else _) _
      rw [if_pos succeeded]
      exact .loop (legal.total_succ_le less) covered

theorem Writes.of_wait
    {next : Code}
    (writes : Writes script sock buffer size (.wait next) progress) :
    Writes script sock buffer size next progress := by
  cases writes with
  | wait less consecutive => exact .suspend less consecutive

theorem Writes.of_suspend
    {next : Code}
    (writes : Writes script sock buffer size (.suspend next) progress) :
    Writes script sock buffer size next progress := by
  cases writes with
  | suspend less consecutive => exact .completion less consecutive

end

theorem keepsInvariant_writes
    (legal : script.Legal size) (sock : SocketT) (buffer : Address) :
    KeepsInvariant Code.instr (fun _ outcome => outcome) SendProgress.advance
      script.Allows (fun _ _ => True)
      (fun nexts code progress => nexts = [] ∧ Writes script sock buffer size code progress) where
  ret := fun holds _ => nomatch holds.1
  await := fun _ awaits => absurd awaits Code.instr_ne_await
  perform := fun holds performs allowed =>
    ⟨trivial, holds.1, holds.2.perform legal performs allowed⟩
  wait := by
    rintro nexts code next progress ⟨rfl, writes⟩ waits -
    obtain rfl := Code.instr_eq_wait waits
    exact ⟨trivial, rfl, writes.of_wait⟩
  suspend := by
    rintro nexts code next progress ⟨rfl, writes⟩ suspends -
    obtain rfl := Code.instr_eq_suspend suspends
    exact ⟨trivial, rfl, writes.of_suspend⟩

/-- Where `write` returns, it has sent the whole buffer. -/
theorem whole_of_writesOn
    (legal : script.Legal size)
    {events : List (Occurrence Effect.Reply)} {value : Result}
    (writes : WritesOn script (Code.write sock buffer size) .initial events (some value)) :
    value = .size size ∧
      Consecutive buffer (events.foldl SendProgress.advance .initial).ranges (buffer + size) ∧
        ∃ index, script.total index = size := by
  have guarantees := (keepsInvariant_writes legal sock buffer).guarantees writes.run writes.allowed
    ⟨rfl, .start⟩
  obtain ⟨code, ⟨-, ended⟩, returns⟩ := guarantees.finished value rfl
  generalize events.foldl SendProgress.advance .initial = progress at ended
  cases ended with
  | loop within consecutive =>
      rw [Code.instr] at returns
      split_ifs at returns with less
      have whole := Nat.le_antisymm within (Nat.le_of_not_lt less)
      cases returns
      rw [whole] at consecutive
      exact ⟨by rw [whole], consecutive, _, whole⟩
  | _ => cases returns

/-! ## What is left of the buffer -/

/-- A send leaves the multiples of 2^32 alone. -/
theorem SendScript.Legal.total_add_le
    (legal : script.Legal size) (large : 2 ^ 32 ≤ size) (index : Nat) :
    script.total index + 2 ^ 32 ≤ size := by
  induction index with
  | zero => rwa [SendScript.total, Nat.zero_add]
  | succ index inductionHypothesis =>
      have less : script.total index < size := by omega
      have transferred := (legal index less).within
      rw [wsaBufLen] at transferred
      rw [SendScript.total]
      omega

/-- A send of what is left, in a buffer that 32 bits can count. -/
theorem SendScript.Legal.total_lt
    (legal : script.Legal size) (small : size < 2 ^ 32) (less : script.total index < size) :
    script.total index < script.total (index + 1) := by
  have counted : wsaBufLen (size - script.total index) = size - script.total index :=
    Nat.mod_eq_of_lt (by omega)
  have sends := legal index less
  rw [counted] at sends
  exact Nat.lt_add_of_pos_right (sends.positive (by omega))

/-- What has been done after one more round of the loop. -/
def SendProgress.next
    (script : SendScript) (buffer : Address) (progress : SendProgress) : SendProgress where
  sends := progress.sends + 1
  start := buffer + script.total progress.sends
  ranges := progress.ranges ++
    [(buffer + script.total progress.sends, (script.packet progress.sends).bytesTransferred)]

/-- A round of the loop, before those that follow. -/
theorem WritesOn.round
    {progress : SendProgress} {events : List (Occurrence Effect.Reply)} {last : Option Result}
    (less : script.total progress.sends < size)
    (sends : script.Sends (wsaBufLen (size - script.total progress.sends)) progress.sends)
    (later : WritesOn script (.tcpWrite sock buffer size (script.total (progress.sends + 1)))
      (progress.next script buffer) events last) :
    WritesOn script (.tcpWrite sock buffer size (script.total progress.sends)) progress
      (.performed (.call (.wsaSend sock (buffer + script.total progress.sends)
          (wsaBufLen (size - script.total progress.sends)))) (script.answer progress.sends) ::
        .waited :: .suspended ::
        .performed .completion (script.packet progress.sends).completion :: events) last := by
  refine ⟨?_, rfl, trivial, trivial, rfl, later.allowed⟩
  have succeeded : (script.packet progress.sends).completion.success = true :=
    decide_eq_true sends.succeeds
  have calls : Code.instr (.tcpWrite sock buffer size (script.total progress.sends)) =
      .perform (.call (.wsaSend sock (buffer + script.total progress.sends)
        (wsaBufLen (size - script.total progress.sends))))
        (Code.sentSome sock buffer size (script.total progress.sends)) :=
    if_pos less
  apply Execution.perform calls
  rw [Code.sentSome, if_neg sends.started]
  refine .wait rfl (.resume rfl (.perform rfl ?_))
  rw [if_pos succeeded]
  exact later.run

/-- The loop ends, in a buffer that 32 bits can count. -/
theorem tcpWrite_writesOn
    (legal : script.Legal size) (small : size < 2 ^ 32)
    (fuel : Nat) (progress : SendProgress)
    (enough : size ≤ script.total progress.sends + fuel) :
    ∃ events value, WritesOn script
      (.tcpWrite sock buffer size (script.total progress.sends)) progress events (some value) := by
  induction fuel generalizing progress with
  | zero =>
      have whole : ¬script.total progress.sends < size := Nat.not_lt.mpr enough
      exact ⟨[], .size (script.total progress.sends), .finish (if_neg whole), trivial⟩
  | succ fuel inductionHypothesis =>
      by_cases less : script.total progress.sends < size
      · have more := legal.total_lt small less
        have closer : size ≤ script.total (progress.next script buffer).sends + fuel := by
          change size ≤ script.total (progress.sends + 1) + fuel
          omega
        obtain ⟨events, value, later⟩ := inductionHypothesis _ closer
        exact ⟨_, value, later.round less (legal _ less)⟩
      · exact ⟨[], .size (script.total progress.sends), .finish (if_neg less), trivial⟩

theorem write_writesOn
    (legal : script.Legal size) (small : size < 2 ^ 32) :
    ∃ events value,
      WritesOn script (Code.write sock buffer size) .initial events (some value) := by
  have loop : ∃ events value, WritesOn script (.tcpWrite sock buffer size (script.total 0))
      .initial events (some value) :=
    tcpWrite_writesOn legal small size .initial (Nat.le_add_left _ _)
  obtain ⟨events, value, writes⟩ := loop
  exact ⟨.performed .overlapped () :: events, value, .perform rfl writes.run, trivial,
    writes.allowed⟩

/-- A longer buffer is never sent to its end: on no legal script does `write` return. -/
theorem not_writesOn_of_large
    (legal : script.Legal size) (large : 2 ^ 32 ≤ size)
    (events : List (Occurrence Effect.Reply)) (value : Result) :
    ¬WritesOn script (Code.write sock buffer size) .initial events (some value) := by
  intro writes
  obtain ⟨-, -, index, whole⟩ := whole_of_writesOn legal writes
  have left := legal.total_add_le large index
  omega

theorem SendsWhole.small
    (sends : SendsWhole script sock buffer size) (legal : script.Legal size) :
    size < 2 ^ 32 := by
  by_contra large
  obtain ⟨events, value, writes⟩ := sends.completes
  exact not_writesOn_of_large legal (Nat.le_of_not_lt large) events value writes

/-- `write` sends the whole buffer exactly where 32 bits can count it. -/
theorem sendsWhole_iff (legal : script.Legal size) (sock : SocketT) (buffer : Address) :
    SendsWhole script sock buffer size ↔ size < 2 ^ 32 := by
  constructor
  · exact fun sends => sends.small legal
  · intro small
    constructor
    · exact write_writesOn legal small
    · exact fun events value writes => (whole_of_writesOn legal writes).2.1
    · exact fun events value writes => (whole_of_writesOn legal writes).1

/-- Sends of one byte each. -/
def bytewise : SendScript where
  answer := fun _ => ⟨0, .other⟩
  packet := fun _ => ⟨1, 1⟩

theorem sendsWhole_bytewise : SendsWhole bytewise 4 4096 3 := by
  have counted : ∀ index, bytewise.total index = index := by
    intro index
    induction index with
    | zero => rfl
    | succ index inductionHypothesis => exact congrArg (· + 1) inductionHypothesis
  have legal : bytewise.Legal 3 := by
    intro index less
    rw [counted] at less ⊢
    have left : 0 < wsaBufLen (3 - index) := by
      rw [wsaBufLen]
      omega
    exact ⟨by simp [bytewise, Code.socketError], by simp [bytewise, winFalse], left,
      fun _ => Nat.one_pos⟩
  exact (sendsWhole_iff legal 4 4096).mpr (by decide)

/-- Sends of zero bytes each. -/
def zeroSends : SendScript where
  answer := fun _ => ⟨0, .other⟩
  packet := fun _ => ⟨1, 0⟩

/-- A buffer of 2^32 bytes is sent in sends of zero bytes. -/
theorem not_sendsWhole_zeroSends :
    zeroSends.Legal (2 ^ 32) ∧ ¬SendsWhole zeroSends 4 4096 (2 ^ 32) := by
  have counted : ∀ index, zeroSends.total index = 0 := by
    intro index
    induction index with
    | zero => rfl
    | succ index inductionHypothesis => exact inductionHypothesis
  have legal : zeroSends.Legal (2 ^ 32) := by
    intro index _
    rw [counted]
    exact ⟨by simp [zeroSends, Code.socketError], by simp [zeroSends, winFalse], Nat.zero_le _,
      fun positive => absurd positive (by decide)⟩
  exact ⟨legal, fun sends => Nat.lt_irrefl _ (sends.small legal)⟩

end Win32

end Cppio
