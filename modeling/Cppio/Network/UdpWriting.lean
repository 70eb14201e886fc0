import Cppio.Network.PeerClose

/-!
# Sending a datagram

The executions of `udp_socket::write` on a script: what `dup` answers, and for each
round of the loop what its `sendto` answers and how its wait ends, should it wait.
The kernel takes a datagram whole or not at all, and it takes one where the answer
is not negative.  The loop takes an answer of zero, which is what an empty datagram
gets, for one that would block, and sends the datagram again.
-/

namespace Cppio

variable {User Own Local : Type}

/-- A datagram as it is handed to the kernel. -/
structure SentDatagram where
  payload : List UInt8
  destination : Address
  deriving DecidableEq

/-- What a call of `write` has done so far. -/
structure SendTally where
  /-- How many calls of `sendto` there were. -/
  rounds : Nat
  /-- The datagrams that the kernel has accepted. -/
  handed : List SentDatagram
  opened : List SocketT
  closed : List SocketT
  deriving DecidableEq

namespace SendTally

def empty : SendTally where
  rounds := 0
  handed := []
  opened := []
  closed := []

/-- The tally after the occurrence. -/
def advance (memory : Memory) (tally : SendTally) : Occurs User Own Local → SendTally
  | .performed (.syscall (.dup _)) answer =>
      if answer.result = socketInvalidHandle then tally
      else { tally with opened := tally.opened ++ [answer.result] }
  | .performed (.syscall (.sendto _ start size endpoint)) answer =>
      { tally with
        rounds := tally.rounds + 1
        handed :=
          if 0 ≤ answer.result then tally.handed ++ [⟨memory.load start size, endpoint⟩]
          else tally.handed }
  | .performed (.syscall (.close sock)) _ => { tally with closed := tally.closed ++ [sock] }
  | _ => tally

theorem advance_of_quiet
    (memory : Memory) (tally : SendTally) {occurrence : Occurs User Own Local}
    (quiet : occurrence.Quiet) :
    tally.advance memory occurrence = tally := by
  unfold advance
  split
  · exact quiet.elim
  · exact quiet.elim
  · exact quiet.elim
  · rfl

end SendTally

/-- What a call of `write` has done on a run. -/
def sendTally (memory : Memory) (events : List (Occurs User Own Local)) : SendTally :=
  events.foldl (SendTally.advance memory) .empty

/-- What `dup` answers, and the rounds of the loop. -/
structure SendScript where
  dup : Answer
  rounds : Script

namespace SendScript

/-- The occurrence is as in the script, after as many calls of `sendto`. -/
def Allows (script : SendScript) (index : Nat) : Occurs User Own Local → Prop
  | .performed (.syscall (.dup _)) answer => answer = script.dup
  | .performed (.syscall (.sendto _ _ _ _)) answer => answer = (script.rounds index).1
  | .performed .success success => success = (script.rounds (index - 1)).2
  | _ => True

/-- The `sendto` of the round would block, and the wait ends without an error. -/
def Waits (script : SendScript) (index : Nat) : Prop :=
  (script.rounds index).1.result < 0 ∧ ¬script.rounds.Fails index

/-- The kernel accepts the datagram in this round, for the first time. -/
def Accepts (script : SendScript) (index : Nat) : Prop :=
  script.dup.result ≠ socketInvalidHandle ∧ (∀ earlier < index, script.Waits earlier) ∧
    0 ≤ (script.rounds index).1.result

end SendScript

/-- The runs of a call of `write` on the script. -/
structure SendsOn
    (program : User → UserInstr User Own Local)
    (memory : Memory)
    (script : SendScript)
    (code : Code User Own)
    (tally : SendTally)
    (events : List (Occurs User Own Local))
    (last : Option (Result Own)) : Prop where
  run : code.Executes program [] events last
  allowed : Along (SendTally.advance memory) (fun tally => script.Allows tally.rounds) tally events

/-- A call of `write` sends at most one datagram. -/
structure SendsAtMostOne
    (program : User → UserInstr User Own Local)
    (memory : Memory)
    (script : SendScript)
    (sock : BaseSocket)
    (endpoint buffer : Address)
    (size : Nat) : Prop where
  atMostOne : ∀ events last,
    SendsOn program memory script (Code.writeTo sock endpoint buffer size) .empty events last →
      (sendTally memory events).handed.length ≤ 1
  /-- The round in which the kernel accepts the datagram is the last one. -/
  terminates : ∀ index, script.Accepts index → ∃ events value,
    SendsOn program memory script (Code.writeTo sock endpoint buffer size) .empty events
        (some value) ∧
      (sendTally memory events).rounds = index + 1
  succeeds : ∀ events count,
    SendsOn program memory script (Code.writeTo sock endpoint buffer size) .empty events
        (some (.size count)) →
      (sendTally memory events).handed = [⟨memory.load buffer size, endpoint⟩]
  fails : ∀ events code,
    SendsOn program memory script (Code.writeTo sock endpoint buffer size) .empty events
        (some (.error code)) →
      (sendTally memory events).handed = []
  /-- What `dup` opened is closed once. -/
  closes : ∀ events value,
    SendsOn program memory script (Code.writeTo sock endpoint buffer size) .empty events
        (some value) →
      (sendTally memory events).closed = (sendTally memory events).opened ∧
        (sendTally memory events).opened.length ≤ 1

/-! ## The loop of `write` -/

namespace SendScript

/-- In how many of the first rounds the kernel accepts the datagram. -/
def accepted (script : SendScript) : Nat → Nat
  | 0 => 0
  | count + 1 =>
      script.accepted count + if 0 ≤ (script.rounds count).1.result then 1 else 0

/-- The round lets the loop go on. -/
def Continues (script : SendScript) (index : Nat) : Prop :=
  ¬0 < (script.rounds index).1.result ∧ ¬script.rounds.Fails index

end SendScript

theorem replicate_accepted
    (script : SendScript) (index : Nat) (datagram : SentDatagram) :
    (if 0 ≤ (script.rounds index).1.result then
        List.replicate (script.accepted index) datagram ++ [datagram]
      else List.replicate (script.accepted index) datagram) =
      List.replicate (script.accepted (index + 1)) datagram := by
  rw [SendScript.accepted]
  split_ifs
  · rw [List.replicate_succ']
  · rfl

/-- The `break` of the loop. -/
abbrev Code.closeAndFail (writeSock : SocketT) : Code User Own :=
  .syscall (.close writeSock) fun _ => Code.fail .closed

/-- Where the loop of `write` is, after so many calls of `sendto` and these of `close`. -/
inductive SendsTo (script : SendScript) (writeSock : SocketT) (endpoint buffer size : Nat) :
    Code User Own → Nat → List SocketT → Prop
  | loop {index : Nat} (before : ∀ earlier < index, script.Continues earlier) :
      SendsTo script writeSock endpoint buffer size
        (.udpWrite writeSock endpoint buffer size) index []
  | park {index : Nat} (before : ∀ earlier < index, script.Continues earlier)
      (nothing : ¬0 < (script.rounds index).1.result)
      (answered : (script.rounds index).1.failed ≠ true)
      (steps : List (ParkStep SocketT)) :
      SendsTo script writeSock endpoint buffer size
        (.park steps (.success fun success =>
          if success then .udpWrite writeSock endpoint buffer size
          else Code.closeAndFail writeSock)) (index + 1) []
  | success {index : Nat} (before : ∀ earlier < index, script.Continues earlier)
      (nothing : ¬0 < (script.rounds index).1.result)
      (answered : (script.rounds index).1.failed ≠ true) :
      SendsTo script writeSock endpoint buffer size
        (.success fun success =>
          if success then .udpWrite writeSock endpoint buffer size
          else Code.closeAndFail writeSock) (index + 1) []
  | succeeding {index count : Nat} (before : ∀ earlier < index, script.Continues earlier)
      (sent : 0 < (script.rounds index).1.result) :
      SendsTo script writeSock endpoint buffer size
        (.syscall (.close writeSock) fun _ => .ret (.size count)) (index + 1) []
  | succeeded {index count : Nat} (before : ∀ earlier < index, script.Continues earlier)
      (sent : 0 < (script.rounds index).1.result) :
      SendsTo script writeSock endpoint buffer size (.ret (.size count)) (index + 1) [writeSock]
  | failing {index : Nat} (before : ∀ earlier < index, script.Continues earlier)
      (fails : script.rounds.Fails index) :
      SendsTo script writeSock endpoint buffer size (Code.closeAndFail writeSock) (index + 1) []
  | failed {index : Nat} (before : ∀ earlier < index, script.Continues earlier)
      (fails : script.rounds.Fails index) :
      SendsTo script writeSock endpoint buffer size (Code.fail .closed) (index + 1) [writeSock]

/-- Where `write` is, with its tally. -/
inductive SendsDatagram
    (memory : Memory) (script : SendScript) (sock : BaseSocket)
    (endpoint buffer size : Nat) : Code User Own → SendTally → Prop
  | start :
      SendsDatagram memory script sock endpoint buffer size
        (Code.writeTo sock endpoint buffer size) .empty
  | dup :
      SendsDatagram memory script sock endpoint buffer size
        (.syscall (.dup sock.outSocket) fun writeSock =>
          if writeSock.result = socketInvalidHandle then Code.fail .systemError
          else .udpWrite writeSock.result endpoint buffer size) .empty
  | refused (invalid : script.dup.result = socketInvalidHandle) :
      SendsDatagram memory script sock endpoint buffer size (Code.fail .systemError) .empty
  | sends {code : Code User Own} {index : Nat} {closed : List SocketT}
      (valid : script.dup.result ≠ socketInvalidHandle)
      (sends : SendsTo script script.dup.result endpoint buffer size code index closed) :
      SendsDatagram memory script sock endpoint buffer size code
        ⟨index, List.replicate (script.accepted index) ⟨memory.load buffer size, endpoint⟩,
          [script.dup.result], closed⟩

theorem continues_succ
    {script : SendScript} {index : Nat}
    (before : ∀ earlier < index, script.Continues earlier)
    (nothing : ¬0 < (script.rounds index).1.result)
    (answered : (script.rounds index).1.failed ≠ true)
    (ready : (script.rounds index).2 = true) :
    ∀ earlier < index + 1, script.Continues earlier := by
  intro earlier less
  rcases Nat.lt_succ_iff_lt_or_eq.mp less with less | rfl
  · exact before earlier less
  · refine ⟨nothing, ?_⟩
    rintro (failed | ⟨-, error⟩)
    · exact answered failed
    · exact nomatch error.symm.trans ready

/-- The branches of the loop after `sendto`. -/
theorem sendsTo_sentTo
    {script : SendScript} {writeSock : SocketT} {endpoint buffer size index : Nat}
    (before : ∀ earlier < index, script.Continues earlier) :
    SendsTo script writeSock endpoint buffer size
      (Code.sentTo writeSock endpoint buffer size (script.rounds index).1 : Code User Own)
      (index + 1) [] := by
  unfold Code.sentTo
  split_ifs with failed positive
  · exact .failing before (Or.inl failed)
  · exact .succeeding before positive
  · exact .park before positive failed _

theorem SendsDatagram.sent
    {memory : Memory} {script : SendScript} {sock : BaseSocket}
    {endpoint buffer size index : Nat}
    (valid : script.dup.result ≠ socketInvalidHandle)
    (before : ∀ earlier < index, script.Continues earlier) :
    SendsDatagram memory script sock endpoint buffer size
      (Code.sentTo script.dup.result endpoint buffer size (script.rounds index).1 : Code User Own)
      ⟨index + 1,
        if 0 ≤ (script.rounds index).1.result then
          List.replicate (script.accepted index) ⟨memory.load buffer size, endpoint⟩ ++
            [⟨memory.load buffer size, endpoint⟩]
        else List.replicate (script.accepted index) ⟨memory.load buffer size, endpoint⟩,
        [script.dup.result], []⟩ := by
  rw [replicate_accepted]
  exact .sends valid (sendsTo_sentTo before)

/-- The branches of the loop after a wait. -/
theorem sendsTo_waited
    {script : SendScript} {writeSock : SocketT} {endpoint buffer size index : Nat}
    (before : ∀ earlier < index, script.Continues earlier)
    (nothing : ¬0 < (script.rounds index).1.result)
    (answered : (script.rounds index).1.failed ≠ true) :
    SendsTo script writeSock endpoint buffer size
      (if (script.rounds index).2 then .udpWrite writeSock endpoint buffer size
        else Code.closeAndFail writeSock : Code User Own) (index + 1) [] := by
  split_ifs with ready
  · exact .loop (continues_succ before nothing answered ready)
  · exact .failing before
      (Or.inr ⟨Int.not_lt.mp nothing, Bool.eq_false_of_not_eq_true ready⟩)

section

variable {program : User → UserInstr User Own Local}
variable {memory : Memory} {script : SendScript} {sock : BaseSocket} {endpoint buffer size : Nat}
variable {code next : Code User Own} {tally : SendTally}

theorem SendsDatagram.perform
    {effect : Effect User Local} {next : effect.Reply Own → Code User Own}
    {outcome : effect.Outcome Own}
    (datagram : SendsDatagram memory script sock endpoint buffer size code tally)
    (performs : code.instr program = .perform effect next)
    (allowed : script.Allows tally.rounds (.performed effect outcome)) :
    SendsDatagram memory script sock endpoint buffer size (next (effect.reply outcome))
      (tally.advance memory (.performed effect outcome)) := by
  cases datagram with
  | start =>
      cases performs
      exact .dup
  | dup =>
      cases performs
      obtain rfl : outcome = script.dup := allowed
      change SendsDatagram memory script sock endpoint buffer size
        (if script.dup.result = socketInvalidHandle then _ else _)
        (if script.dup.result = socketInvalidHandle then _ else _)
      split_ifs with invalid
      · exact .refused invalid
      · exact .sends invalid (.loop fun _ earlier => absurd earlier (Nat.not_lt_zero _))
  | refused invalid => cases performs
  | @sends _ index _ valid sends =>
      cases sends with
      | loop before =>
          cases performs
          obtain rfl : outcome = (script.rounds index).1 := allowed
          exact .sent valid before
      | park before nothing answered steps =>
          obtain ⟨quiet, rest, parks⟩ := Code.park_performs performs outcome
          rw [SendTally.advance_of_quiet memory _ quiet, parks]
          exact .sends valid (.park before nothing answered rest)
      | @success index before nothing answered =>
          cases performs
          obtain rfl : outcome = (script.rounds index).2 := allowed
          exact .sends valid (sendsTo_waited before nothing answered)
      | succeeding before sent =>
          cases performs
          exact .sends valid (.succeeded before sent)
      | succeeded before sent => cases performs
      | failing before fails =>
          cases performs
          exact .sends valid (.failed before fails)
      | failed before fails => cases performs

theorem SendsDatagram.of_wait
    (datagram : SendsDatagram memory script sock endpoint buffer size code tally)
    (waits : code.instr program = .wait next) :
    SendsDatagram memory script sock endpoint buffer size next tally := by
  obtain ⟨here, rfl⟩ | ⟨rest, after, rfl, rfl⟩ := Code.instr_eq_wait waits
  · cases datagram with | sends valid sends => cases sends
  · cases datagram with
    | sends valid sends =>
        cases sends with
        | park before nothing answered steps =>
            exact .sends valid (.park before nothing answered rest)

theorem SendsDatagram.of_suspend
    (datagram : SendsDatagram memory script sock endpoint buffer size code tally)
    (suspends : code.instr program = .suspend next) :
    SendsDatagram memory script sock endpoint buffer size next tally := by
  obtain ⟨here, rfl⟩ | rfl := Code.instr_eq_suspend suspends
  · cases datagram with | sends valid sends => cases sends
  · cases datagram with
    | sends valid sends =>
        cases sends with
        | park before nothing answered steps =>
            exact .sends valid (.success before nothing answered)

theorem SendsDatagram.ne_await
    {child : Code User Own} {next : Result Own → Code User Own}
    (datagram : SendsDatagram memory script sock endpoint buffer size code tally) :
    code.instr program ≠ .await child next := by
  intro awaits
  obtain ⟨here, rfl⟩ | ⟨_, _, _, _, -, rfl, -⟩ := Code.instr_eq_await awaits
  · cases datagram with | sends valid sends => cases sends
  · cases datagram with | sends valid sends => cases sends

end

theorem keepsInvariant_sendsDatagram
    (program : User → UserInstr User Own Local)
    (memory : Memory) (script : SendScript) (sock : BaseSocket) (endpoint buffer size : Nat) :
    KeepsInvariant (Code.instr program) Effect.reply (SendTally.advance memory)
      (fun tally => script.Allows tally.rounds) (fun _ _ => True)
      (fun nexts code tally => nexts = [] ∧
        SendsDatagram memory script sock endpoint buffer size code tally) where
  ret := fun holds _ => nomatch holds.1
  await := fun holds awaits => absurd awaits holds.2.ne_await
  perform := fun holds performs allowed => ⟨trivial, holds.1, holds.2.perform performs allowed⟩
  wait := fun holds waits _ => ⟨trivial, holds.1, holds.2.of_wait waits⟩
  suspend := fun holds suspends _ => ⟨trivial, holds.1, holds.2.of_suspend suspends⟩

/-! ## What a call returns -/

theorem SendsTo.before
    {script : SendScript} {writeSock : SocketT} {endpoint buffer size index : Nat}
    {code : Code User Own} {closed : List SocketT}
    (sends : SendsTo script writeSock endpoint buffer size code index closed) :
    ∀ earlier, earlier + 1 < index → script.Continues earlier := by
  intro earlier less
  cases sends with
  | loop before => exact before earlier (Nat.lt_of_succ_lt less)
  | park before | success before | succeeding before | succeeded before | failing before
  | failed before => exact before earlier (Nat.lt_of_succ_lt_succ less)

/-- How a call of `write` ends, and its tally. -/
inductive SendEnds (memory : Memory) (script : SendScript) (endpoint buffer size : Nat) :
    Result Own → SendTally → Prop
  | refused : SendEnds memory script endpoint buffer size (.error .systemError) .empty
  | succeeds {index count : Nat}
      (valid : script.dup.result ≠ socketInvalidHandle)
      (before : ∀ earlier < index, script.Continues earlier)
      (sent : 0 < (script.rounds index).1.result) :
      SendEnds memory script endpoint buffer size (.size count)
        ⟨index + 1, List.replicate (script.accepted (index + 1))
          ⟨memory.load buffer size, endpoint⟩, [script.dup.result], [script.dup.result]⟩
  | fails {index : Nat}
      (valid : script.dup.result ≠ socketInvalidHandle)
      (before : ∀ earlier < index, script.Continues earlier)
      (fails : script.rounds.Fails index) :
      SendEnds memory script endpoint buffer size (.error .closed)
        ⟨index + 1, List.replicate (script.accepted (index + 1))
          ⟨memory.load buffer size, endpoint⟩, [script.dup.result], [script.dup.result]⟩

theorem SendsDatagram.ends
    {program : User → UserInstr User Own Local}
    {memory : Memory} {script : SendScript} {sock : BaseSocket} {endpoint buffer size : Nat}
    {code : Code User Own} {tally : SendTally} {value : Result Own}
    (datagram : SendsDatagram memory script sock endpoint buffer size code tally)
    (returns : code.instr program = .ret value) :
    SendEnds memory script endpoint buffer size value tally := by
  cases datagram with
  | refused invalid =>
      cases returns
      exact .refused
  | sends valid sends =>
      cases sends with
      | park before nothing answered steps => exact absurd returns Code.park_ne_ret
      | succeeded before sent =>
          cases returns
          exact .succeeds valid before sent
      | failed before fails =>
          cases returns
          exact .fails valid before fails
      | _ => cases returns
  | _ => cases returns

variable {program : User → UserInstr User Own Local} {memory : Memory} {script : SendScript}
variable {sock : BaseSocket} {endpoint buffer : Address} {size index : Nat}

/-- Where a run of `write` has got to. -/
theorem sendsDatagram_of_sendsOn
    {events : List (Occurs User Own Local)} {last : Option (Result Own)}
    (sends : SendsOn program memory script (Code.writeTo sock endpoint buffer size) .empty events
      last) :
    ∃ code, SendsDatagram memory script sock endpoint buffer size code
        (sendTally memory events) ∧
      ∀ value, last = some value → code.instr program = .ret value := by
  have guarantees := (keepsInvariant_sendsDatagram program memory script sock endpoint buffer
    size).guarantees sends.run sends.allowed ⟨rfl, .start⟩
  cases last with
  | none =>
      obtain ⟨_, code, -, datagram⟩ := guarantees.unfinished rfl
      exact ⟨code, datagram, fun _ absent => nomatch absent⟩
  | some value =>
      obtain ⟨code, ⟨-, datagram⟩, returns⟩ := guarantees.finished value rfl
      exact ⟨code, datagram, fun _ same => Option.some.inj same ▸ returns⟩

theorem sendEnds_of_sendsOn
    {events : List (Occurs User Own Local)} {value : Result Own}
    (sends : SendsOn program memory script (Code.writeTo sock endpoint buffer size) .empty events
      (some value)) :
    SendEnds memory script endpoint buffer size value (sendTally memory events) := by
  obtain ⟨code, datagram, returns⟩ := sendsDatagram_of_sendsOn sends
  exact datagram.ends (returns value rfl)

namespace SendScript

/-- Where no acceptance is answered with zero, the rounds that let the loop go on have
all been refused. -/
theorem waits_of_continues
    (valid : script.dup.result ≠ socketInvalidHandle)
    (nonzero : ∀ index, script.Accepts index → (script.rounds index).1.result ≠ 0)
    (before : ∀ earlier < index, script.Continues earlier) :
    ∀ earlier < index, script.Waits earlier := by
  induction index with
  | zero => exact fun _ earlier => absurd earlier (Nat.not_lt_zero _)
  | succ index inductionHypothesis =>
      have waits := inductionHypothesis fun earlier less =>
        before earlier (less.trans index.lt_succ_self)
      intro earlier less
      rcases Nat.lt_succ_iff_lt_or_eq.mp less with less | rfl
      · exact waits earlier less
      · obtain ⟨nothing, succeeded⟩ := before earlier earlier.lt_succ_self
        refine ⟨?_, succeeded⟩
        by_contra accepted
        have zero := nonzero earlier ⟨valid, waits, Int.not_lt.mp accepted⟩
        exact zero (Int.le_antisymm (Int.not_lt.mp nothing) (Int.not_lt.mp accepted))

theorem accepted_eq_zero (waits : ∀ earlier < index, script.Waits earlier) :
    script.accepted index = 0 := by
  induction index with
  | zero => rfl
  | succ index inductionHypothesis =>
      have refused := (waits index index.lt_succ_self).1
      rw [accepted, if_neg refused.not_ge,
        inductionHypothesis fun earlier less => waits earlier (less.trans index.lt_succ_self)]

theorem accepted_le_one
    (waits : ∀ earlier, earlier + 1 < index → script.Waits earlier) :
    script.accepted index ≤ 1 := by
  cases index with
  | zero => exact Nat.zero_le 1
  | succ index =>
      rw [accepted, accepted_eq_zero fun earlier less => waits earlier (Nat.succ_lt_succ less)]
      split_ifs
      · exact le_rfl
      · exact Nat.zero_le 1

/-- Where no acceptance is answered with zero, the round that fails has been refused. -/
theorem refused_of_fails
    (valid : script.dup.result ≠ socketInvalidHandle)
    (nonzero : ∀ index, script.Accepts index → (script.rounds index).1.result ≠ 0)
    (waits : ∀ earlier < index, script.Waits earlier)
    (fails : script.rounds.Fails index) :
    ¬0 ≤ (script.rounds index).1.result := by
  intro accepted
  obtain failed | ⟨nothing, -⟩ := fails
  · exact (Answer.failed_neg failed).not_ge accepted
  · exact nonzero index ⟨valid, waits, accepted⟩ (Int.le_antisymm nothing accepted)

end SendScript

theorem SendsDatagram.atMostOne
    {code : Code User Own} {tally : SendTally}
    (datagram : SendsDatagram memory script sock endpoint buffer size code tally)
    (nonzero : ∀ index, script.Accepts index → (script.rounds index).1.result ≠ 0) :
    tally.handed.length ≤ 1 := by
  cases datagram with
  | sends valid sends =>
      rw [List.length_replicate]
      apply SendScript.accepted_le_one
      intro earlier less
      have before : ∀ first < earlier + 1, script.Continues first := fun first upTo =>
        sends.before first (lt_of_le_of_lt upTo less)
      exact SendScript.waits_of_continues valid nonzero before earlier earlier.lt_succ_self
  | _ => exact Nat.zero_le 1

/-! ## When at most one datagram is sent -/

/-- What happens in a round whose `sendto` would block. -/
def refusedRound
    (script : SendScript) (writeSock : SocketT) (endpoint buffer : Address) (size index : Nat) :
    List (Occurs User Own Local) :=
  [.performed (.syscall (.sendto writeSock buffer size endpoint)) (script.rounds index).1, .waited,
    .performed (.register .write writeSock) ⟨0, 0⟩, .suspended, .performed .success true]

/-- A round whose `sendto` would block, before the rounds that follow. -/
theorem SendsOn.refused
    {tally : SendTally} {writeSock : SocketT}
    {events : List (Occurs User Own Local)} {last : Option (Result Own)}
    (waits : script.Waits tally.rounds)
    (sends : SendsOn program memory script (.udpWrite writeSock endpoint buffer size)
      { tally with rounds := tally.rounds + 1 } events last) :
    SendsOn program memory script (.udpWrite writeSock endpoint buffer size) tally
      (refusedRound script writeSock endpoint buffer size tally.rounds ++ events) last := by
  obtain ⟨refused, succeeded⟩ := waits
  obtain ⟨answered, readable⟩ := not_or.mp succeeded
  have ready : (script.rounds tally.rounds).2 = true := by
    by_contra error
    exact readable ⟨refused.le, Bool.eq_false_of_not_eq_true error⟩
  constructor
  · apply Execution.perform rfl
    change Code.Executes program [] (Code.sentTo _ _ _ _ (script.rounds tally.rounds).1) _ _
    rw [Code.sentTo, if_neg answered, if_neg refused.not_gt]
    exact .wait rfl (.perform rfl (.resume rfl (.perform rfl sends.run)))
  · have handed : (if 0 ≤ (script.rounds tally.rounds).1.result then
          tally.handed ++ [⟨memory.load buffer size, endpoint⟩]
        else tally.handed) = tally.handed :=
      if_neg refused.not_ge
    have later := sends.allowed
    refine ⟨rfl, trivial, trivial, trivial, ready.symm, ?_⟩
    simp only [SendTally.advance, handed]
    exact later

theorem foldl_refusedRound
    (waits : script.Waits index) (writeSock : SocketT) (tally : SendTally) :
    (refusedRound script writeSock endpoint buffer size index :
        List (Occurs User Own Local)).foldl (SendTally.advance memory) tally =
      { tally with rounds := tally.rounds + 1 } := by
  simp only [refusedRound, List.foldl, SendTally.advance, if_neg waits.1.not_ge]

/-- The rounds up to the one in which the kernel accepts the datagram. -/
theorem udpWrite_sendsOn
    (distance : Nat) {tally : SendTally} {writeSock : SocketT}
    (waits : ∀ earlier < distance, script.Waits (tally.rounds + earlier))
    (sent : 0 < (script.rounds (tally.rounds + distance)).1.result) :
    ∃ events value,
      SendsOn program memory script (.udpWrite writeSock endpoint buffer size) tally events
          (some value) ∧
        (events.foldl (SendTally.advance memory) tally).rounds = tally.rounds + distance + 1 := by
  induction distance generalizing tally with
  | zero =>
      rw [Nat.add_zero] at sent
      have succeeded : ¬(script.rounds tally.rounds).1.failed = true := fun failed =>
        (Answer.failed_neg failed).asymm sent
      refine ⟨[.performed (.syscall (.sendto writeSock buffer size endpoint))
        (script.rounds tally.rounds).1, .performed (.syscall (.close writeSock)) ⟨0, .other⟩],
        .size (script.rounds tally.rounds).1.result.toNat, ⟨?_, rfl, trivial, trivial⟩, rfl⟩
      apply Execution.perform rfl
      change Code.Executes program [] (Code.sentTo _ _ _ _ (script.rounds tally.rounds).1) _ _
      rw [Code.sentTo, if_neg succeeded, if_pos sent]
      exact .perform rfl (.finish rfl)
  | succ distance inductionHypothesis =>
      have first : script.Waits tally.rounds := waits 0 distance.succ_pos
      have later : ∀ earlier < distance, script.Waits (tally.rounds + 1 + earlier) := by
        intro earlier less
        rw [Nat.succ_add_eq_add_succ]
        exact waits (earlier + 1) (Nat.succ_lt_succ less)
      rw [← Nat.succ_add_eq_add_succ] at sent
      obtain ⟨events, value, sends, rounds⟩ :=
        @inductionHypothesis { tally with rounds := tally.rounds + 1 } later sent
      refine ⟨_, value, sends.refused first, ?_⟩
      rw [List.foldl_append, foldl_refusedRound first, rounds, Nat.add_right_comm _ 1]
      rfl

/-- Where the kernel accepts the datagram with a positive answer, the call returns. -/
theorem writeTo_sendsOn
    (accepts : script.Accepts index)
    (sent : 0 < (script.rounds index).1.result) :
    ∃ events value,
      SendsOn program memory script (Code.writeTo sock endpoint buffer size) .empty events
          (some value) ∧
        (sendTally memory events).rounds = index + 1 := by
  obtain ⟨valid, waits, -⟩ := accepts
  have opened : (SendTally.advance memory .empty (.performed (.syscall (.dup sock.outSocket))
      script.dup : Occurs User Own Local)) = ⟨0, [], [script.dup.result], []⟩ := if_neg valid
  have loop : ∃ events value,
      SendsOn program memory script (.udpWrite script.dup.result endpoint buffer size)
          ⟨0, [], [script.dup.result], []⟩ events (some value) ∧
        (events.foldl (SendTally.advance memory) ⟨0, [], [script.dup.result], []⟩).rounds =
          0 + index + 1 := by
    apply udpWrite_sendsOn index
    · intro earlier less
      rw [Nat.zero_add]
      exact waits earlier less
    · rw [Nat.zero_add]
      exact sent
  obtain ⟨events, value, sends, rounds⟩ := loop
  rw [← opened] at sends rounds
  refine ⟨.performed .overlapped () :: .performed (.syscall (.dup sock.outSocket)) script.dup ::
    events, value, ⟨?_, trivial, rfl, sends.allowed⟩, rounds.trans (by rw [Nat.zero_add])⟩
  apply Execution.perform rfl (.perform rfl _)
  change Code.Executes program [] (if script.dup.result = socketInvalidHandle then _ else _) _ _
  rw [if_neg valid]
  exact sends.run

theorem SendsAtMostOne.nonzero
    (sends : SendsAtMostOne program memory script sock endpoint buffer size) :
    ∀ index, script.Accepts index → (script.rounds index).1.result ≠ 0 := by
  intro index accepts zero
  obtain ⟨events, value, run, rounds⟩ := sends.terminates index accepts
  have ends := sendEnds_of_sendsOn run
  have unsent : ∀ code, value = .error code → (sendTally memory events).handed = [] := by
    rintro code rfl
    exact sends.fails events code run
  generalize sendTally memory events = tally at ends rounds unsent
  cases ends with
  | refused => cases rounds
  | succeeds valid before sent =>
      obtain rfl := Nat.succ.inj rounds
      exact sent.ne' zero
  | fails valid before fails =>
      obtain rfl := Nat.succ.inj rounds
      have sent := congrArg List.length (unsent _ rfl)
      rw [SendScript.accepted, if_pos zero.ge, List.length_replicate] at sent
      cases sent

theorem sendsAtMostOne_of_nonzero
    (nonzero : ∀ index, script.Accepts index → (script.rounds index).1.result ≠ 0) :
    SendsAtMostOne program memory script sock endpoint buffer size := by
  constructor
  · intro events last run
    obtain ⟨code, datagram, -⟩ := sendsDatagram_of_sendsOn run
    exact datagram.atMostOne nonzero
  · intro index accepts
    exact writeTo_sendsOn accepts (lt_of_le_of_ne accepts.2.2 (nonzero index accepts).symm)
  · intro events count run
    have ends := sendEnds_of_sendsOn run
    generalize sendTally memory events = tally at ends
    cases ends with
    | succeeds valid before sent =>
        have waits := SendScript.waits_of_continues valid nonzero before
        rw [SendScript.accepted, if_pos sent.le, SendScript.accepted_eq_zero waits]
        rfl
  · intro events code run
    have ends := sendEnds_of_sendsOn run
    generalize sendTally memory events = tally at ends
    cases ends with
    | refused => rfl
    | @fails index valid before fails =>
        have waits := SendScript.waits_of_continues valid nonzero before
        have refused := SendScript.refused_of_fails valid nonzero waits fails
        rw [SendScript.accepted, if_neg refused, SendScript.accepted_eq_zero waits]
        rfl
  · intro events value run
    have ends := sendEnds_of_sendsOn run
    generalize sendTally memory events = tally at ends
    cases ends with
    | refused => exact ⟨rfl, Nat.zero_le 1⟩
    | succeeds valid before sent => exact ⟨rfl, le_rfl⟩
    | fails valid before fails => exact ⟨rfl, le_rfl⟩

/-- The kernel accepts at most one datagram, and `write` then returns, exactly where no
acceptance is answered with zero. -/
theorem sendsAtMostOne_iff
    (program : User → UserInstr User Own Local)
    (memory : Memory) (script : SendScript) (sock : BaseSocket) (endpoint buffer : Address)
    (size : Nat) :
    SendsAtMostOne program memory script sock endpoint buffer size ↔
      ∀ index, script.Accepts index → (script.rounds index).1.result ≠ 0 :=
  ⟨SendsAtMostOne.nonzero, sendsAtMostOne_of_nonzero⟩

/-- An acceptance is answered with the size, so only an empty buffer goes wrong. -/
theorem sendsAtMostOne_of_nonempty
    (whole : ∀ index, 0 ≤ (script.rounds index).1.result →
      (script.rounds index).1.result = size)
    (nonempty : 0 < size) :
    SendsAtMostOne program memory script sock endpoint buffer size := by
  apply sendsAtMostOne_of_nonzero
  intro index accepts zero
  have answered := whole index accepts.2.2
  omega

/-- An empty datagram, which the kernel accepts each time. -/
def emptyDatagram : SendScript where
  dup := ⟨9, .other⟩
  rounds := fun _ => (⟨0, .other⟩, true)

/-- The empty datagram is sent again and again. -/
theorem not_sendsAtMostOne_emptyDatagram :
    ¬SendsAtMostOne (Empty.elim : Empty → UserInstr Empty Empty Empty) (fun _ => 0) emptyDatagram
      ⟨3, 4⟩ 8192 4096 0 := by
  intro sends
  have accepts : emptyDatagram.Accepts 0 :=
    ⟨by decide, fun _ earlier => absurd earlier (Nat.not_lt_zero _), le_rfl⟩
  exact sends.nonzero 0 accepts rfl

end Cppio
