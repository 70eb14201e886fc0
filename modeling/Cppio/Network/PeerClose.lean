import Cppio.Network.TcpReading

/-!
# Reading from a peer that closes

The executions of `read` and `read_exactly` on a script: for each round of the loop
of `read`, what its `recv` answers and how its wait ends, should it wait.  A `recv`
that returns zero is taken for one that would block, so the loop goes on for ever
once the peer has closed.
-/

namespace Cppio

variable {User Own Local : Type}

/-- For each round, the answer of `recv`, and whether the wait ends without an error. -/
abbrev Script := Nat → Answer × Bool

namespace Occurrence

/-- How many calls of `recv` there were. -/
def countRecv (index : Nat) : Occurs User Own Local → Nat
  | .performed (.syscall (.recv _ _ _)) _ => index + 1
  | _ => index

/-- The occurrence is as in the script, after as many calls of `recv`. -/
def Scripted (script : Script) (index : Nat) : Occurs User Own Local → Prop
  | .performed (.syscall (.recv _ _ _)) answer => answer = (script index).1
  | .performed .success success => success = (script (index - 1)).2
  | _ => True

end Occurrence

namespace Script

/-- From this round on, `recv` returns zero and the socket is readable. -/
def Closes (script : Script) (closed : Nat) : Prop :=
  ∀ index ≥ closed, (script index).1.result = 0 ∧ (script index).2 = true

/-- The `recv` of the round fails, or its wait does. -/
def Fails (script : Script) (index : Nat) : Prop :=
  (script index).1.failed = true ∨ (script index).1.result ≤ 0 ∧ (script index).2 = false

instance (script : Script) (index : Nat) : Decidable (script.Fails index) :=
  inferInstanceAs (Decidable (_ ∨ _))

/-- How many bytes come in the first rounds. -/
def gained (script : Script) : Nat → Nat
  | 0 => 0
  | count + 1 => script.gained count + (script count).1.result.toNat

/-- `recv` returns no more than `read_exactly` still asks for. -/
def Legal (script : Script) (size : Nat) : Prop :=
  ∀ index, script.gained index < size →
    (script index).1.result ≤ (size - script.gained index : Nat)

end Script

/-- The coroutine returns, from this point of the script on. -/
def Code.CompletesFrom
    (program : User → UserInstr User Own Local)
    (script : Script)
    (nexts : List (Result Own → Code User Own))
    (code : Code User Own)
    (index : Nat) : Prop :=
  ∃ events value, code.Executes program nexts events (some value) ∧
    Along Occurrence.countRecv (Occurrence.Scripted script) index events

/-- The coroutine returns, on this script. -/
def Code.Completes
    (program : User → UserInstr User Own Local) (script : Script) (code : Code User Own) : Prop :=
  Code.CompletesFrom program script [] code 0

variable {program : User → UserInstr User Own Local} {script : Script}
variable {nexts : List (Result Own → Code User Own)} {next : Result Own → Code User Own}
variable {sock : BaseSocket} {buffer size index : Nat}

theorem countRecv_of_quiet
    {occurrence : Occurs User Own Local} (quiet : occurrence.Quiet) :
    occurrence.countRecv index = index := by
  unfold Occurrence.countRecv
  split
  · exact quiet.elim
  · rfl

/-! ## Rounds of the loop -/

namespace Code

theorem completesFrom_ret_nil (value : Result Own) :
    CompletesFrom program script [] (.ret value) index :=
  ⟨[], value, .finish rfl, trivial⟩

theorem CompletesFrom.ret
    {value : Result Own}
    (completes : CompletesFrom program script nexts (next value) index) :
    CompletesFrom program script (next :: nexts) (.ret value) index := by
  obtain ⟨events, last, run, follows⟩ := completes
  exact ⟨events, last, .ret rfl run, follows⟩

/-- What follows the `recv` of a round. -/
theorem CompletesFrom.recv
    (completes : CompletesFrom program script nexts
      (Code.received (.tcpRead sock.socket) (.tcpRead sock buffer size) (script index).1)
      (index + 1)) :
    CompletesFrom program script nexts (.tcpRead sock buffer size) index := by
  obtain ⟨events, last, run, follows⟩ := completes
  exact ⟨.performed (.syscall (.recv sock.socket buffer size)) (script index).1 :: events, last,
    .perform rfl run, rfl, follows⟩

/-- What follows the wait of a round. -/
theorem CompletesFrom.waits
    {again : Code User Own}
    (completes : CompletesFrom program script nexts
      (if (script index).2 then again else fail .closed) (index + 1)) :
    CompletesFrom program script nexts
      (.overlapped (.park (Operation.tcpRead sock.socket).parkSteps (.success fun success =>
        if success then again else fail .closed))) (index + 1) := by
  obtain ⟨events, last, run, follows⟩ := completes
  refine ⟨.performed .overlapped () :: .waited ::
    .performed (.register .read sock.socket) ⟨0, 0⟩ :: .suspended ::
      .performed .success (script index).2 :: events, last, ?_, ?_⟩
  · exact .perform rfl (.wait rfl (.perform rfl (.resume rfl (.perform rfl run))))
  · exact ⟨trivial, trivial, trivial, trivial, rfl, follows⟩

/-- A round in which `read` receives something. -/
theorem completesFrom_of_received
    (some : 0 < (script index).1.result)
    (completes : CompletesFrom program script nexts
      (.ret (.size (script index).1.result.toNat)) (index + 1)) :
    CompletesFrom program script nexts (.tcpRead sock buffer size) index := by
  apply CompletesFrom.recv
  have succeeded : ¬(script index).1.failed = true := fun failed =>
    (Answer.failed_neg failed).asymm some
  rw [Code.received, if_neg succeeded, if_pos some]
  exact completes

/-- A round in which `read` fails. -/
theorem completesFrom_of_fails
    (fails : script.Fails index)
    (completes : CompletesFrom program script nexts (fail .closed) (index + 1)) :
    CompletesFrom program script nexts (.tcpRead sock buffer size) index := by
  apply CompletesFrom.recv
  unfold Code.received
  split_ifs with failed positive
  · exact completes
  · obtain failed' | ⟨nothing, -⟩ := fails
    · exact absurd failed' failed
    · exact absurd positive nothing.not_gt
  · obtain failed' | ⟨-, error⟩ := fails
    · exact absurd failed' failed
    · apply CompletesFrom.waits
      rw [if_neg (by rw [error]; decide)]
      exact completes

/-- A round in which nothing comes. -/
theorem completesFrom_of_nothing
    (nothing : ¬0 < (script index).1.result)
    (succeeded : ¬script.Fails index)
    (completes : CompletesFrom program script nexts (.tcpRead sock buffer size) (index + 1)) :
    CompletesFrom program script nexts (.tcpRead sock buffer size) index := by
  obtain ⟨answered, readable⟩ := not_or.mp succeeded
  apply CompletesFrom.recv
  rw [Code.received, if_neg answered, if_neg nothing]
  apply CompletesFrom.waits
  have ends : (script index).2 = true := by
    by_contra error
    exact readable ⟨Int.not_lt.mp nothing, Bool.eq_false_of_not_eq_true error⟩
  rw [if_pos ends]
  exact completes

theorem read_completesFrom
    (distance : Nat)
    (ends : 0 < (script (index + distance)).1.result ∨ script.Fails (index + distance)) :
    CompletesFrom program script [] (read sock buffer size) index := by
  induction distance generalizing index with
  | zero =>
      obtain some | fails := ends
      · exact completesFrom_of_received some (completesFrom_ret_nil _)
      · exact completesFrom_of_fails fails (completesFrom_ret_nil _)
  | succ distance inductionHypothesis =>
      by_cases some : 0 < (script index).1.result
      · exact completesFrom_of_received some (completesFrom_ret_nil _)
      by_cases fails : script.Fails index
      · exact completesFrom_of_fails fails (completesFrom_ret_nil _)
      · refine completesFrom_of_nothing some fails (inductionHypothesis ?_)
        rwa [Nat.succ_add_eq_add_succ]

/-- The loop of `read_exactly` ends, or goes on to its `read`. -/
theorem CompletesFrom.readExactly
    {total : Nat}
    (within : total ≤ size)
    (goesOn : total < size → CompletesFrom program script [readSome sock buffer size total]
      (read sock (buffer + total) (size - total)) index) :
    CompletesFrom program script [] (.tcpReadExactly sock buffer size total) index := by
  by_cases whole : total = size
  · exact ⟨[], .size 0, .finish (if_neg (not_not.mpr whole)), trivial⟩
  · obtain ⟨events, last, run, follows⟩ := goesOn (Nat.lt_of_le_of_ne within whole)
    exact ⟨events, last, .await (if_pos whole) run, follows⟩

/-- `read_exactly`, in its `read`. -/
theorem readSome_completesFrom
    (legal : script.Legal size)
    (index distance : Nat)
    (ends : size ≤ script.gained (index + distance) ∨ script.Fails (index + distance))
    (less : script.gained index < size) :
    CompletesFrom program script [readSome sock buffer size (script.gained index)]
      (read sock (buffer + script.gained index) (size - script.gained index)) index := by
  induction distance generalizing index with
  | zero =>
      obtain whole | fails := ends
      · exact absurd less (Nat.not_lt.mpr whole)
      · exact completesFrom_of_fails fails (CompletesFrom.ret (completesFrom_ret_nil _))
  | succ distance inductionHypothesis =>
      rw [← Nat.succ_add_eq_add_succ] at ends
      by_cases fails : script.Fails index
      · exact completesFrom_of_fails fails (CompletesFrom.ret (completesFrom_ret_nil _))
      by_cases some : 0 < (script index).1.result
      · have bounded := legal index less
        have within : script.gained (index + 1) ≤ size := by
          rw [Script.gained]
          omega
        refine completesFrom_of_received some (CompletesFrom.ret ?_)
        exact CompletesFrom.readExactly within (inductionHypothesis _ ends)
      · have same : script.gained (index + 1) = script.gained index := by
          rw [Script.gained, Int.toNat_of_nonpos (Int.not_lt.mp some), Nat.add_zero]
        have goesOn := inductionHypothesis _ ends (same ▸ less)
        rw [same] at goesOn
        exact completesFrom_of_nothing some fails goesOn

end Code

/-! ## Reads that do not end -/

/-- Where a read is after rounds in which nothing came: it has seen the last answer,
unless a round begins. -/
structure Tries
    (script : Script) (sock : BaseSocket) (buffer size : Nat)
    (code : Code User Own) (index : Nat) : Prop where
  reads : Reads sock buffer size code
  answered : code = .tcpRead sock buffer size ∨ (script (index - 1)).1.result ≤ 0

/-- Where no round fails, a step of a read goes on or receives something. -/
theorem Tries.perform
    {code : Code User Own} {effect : Effect User Local} {next : effect.Reply Own → Code User Own}
    (tries : Tries script sock buffer size code index)
    (succeed : ∀ index, ¬script.Fails index)
    (performs : code.instr program = .perform effect next)
    {outcome : effect.Outcome Own}
    (scripted : Occurrence.Scripted script index (.performed effect outcome)) :
    (Tries script sock buffer size (next (effect.reply outcome))
        (Occurrence.countRecv index (.performed effect outcome)) ∧
      script.gained (Occurrence.countRecv index (.performed effect outcome)) =
        script.gained index) ∨
    ∃ read > 0, next (effect.reply outcome) = .ret (.size read) ∧
      (script index).1.result = read ∧
      script.gained (Occurrence.countRecv index (.performed effect outcome)) =
        script.gained index + read := by
  obtain ⟨reads, answered⟩ := tries
  cases reads with
  | loop =>
      cases performs
      obtain rfl : outcome = (script index).1 := scripted
      have next : script.gained (index + 1) =
          script.gained index + (script index).1.result.toNat := rfl
      obtain ⟨succeeded, -⟩ := not_or.mp (succeed index)
      change (Tries script sock buffer size (Code.received _ _ (script index).1) (index + 1) ∧
        _) ∨ ∃ read > 0, Code.received _ _ (script index).1 = _ ∧ _ ∧ _
      unfold Code.received
      rw [if_neg succeeded]
      split_ifs with positive
      · exact Or.inr ⟨_, Int.pos_iff_toNat_pos.mp positive, rfl,
          (Int.toNat_of_nonneg positive.le).symm, next⟩
      · have nothing := Int.not_lt.mp positive
        refine Or.inl ⟨⟨.overlapped _, Or.inr nothing⟩, ?_⟩
        rw [Int.toNat_of_nonpos nothing] at next
        exact next
  | overlapped steps =>
      cases performs
      exact Or.inl ⟨⟨.park steps, Or.inr (answered.resolve_left nofun)⟩, rfl⟩
  | park steps =>
      obtain ⟨quiet, rest, parks⟩ := Code.park_performs performs outcome
      rw [parks, countRecv_of_quiet quiet]
      exact Or.inl ⟨⟨.park rest, Or.inr (answered.resolve_left nofun)⟩, rfl⟩
  | success =>
      cases performs
      obtain rfl : outcome = (script (index - 1)).2 := scripted
      have nothing := answered.resolve_left nofun
      have ends : (script (index - 1)).2 = true := by
        by_contra error
        exact succeed _ (Or.inr ⟨nothing, Bool.eq_false_of_not_eq_true error⟩)
      refine Or.inl ⟨?_, rfl⟩
      change Tries script sock buffer size (if (script (index - 1)).2 then _ else _) index
      rw [if_pos ends]
      exact ⟨.loop, Or.inl rfl⟩

theorem Tries.wait
    {code next : Code User Own}
    (tries : Tries script sock buffer size code index) (waits : code.instr program = .wait next) :
    Tries script sock buffer size next index where
  reads := tries.reads.wait waits
  answered := Or.inr <| tries.answered.resolve_left fun loop => by
    rw [loop] at waits
    cases waits

theorem Tries.suspend
    {code next : Code User Own}
    (tries : Tries script sock buffer size code index)
    (suspends : code.instr program = .suspend next) :
    Tries script sock buffer size next index where
  reads := tries.reads.suspend suspends
  answered := Or.inr <| tries.answered.resolve_left fun loop => by
    rw [loop] at suspends
    cases suspends

/-- Where nothing ever comes and no round fails, a read goes on. -/
theorem keepsInvariant_tries
    (program : User → UserInstr User Own Local)
    (succeed : ∀ index, ¬script.Fails index)
    (nothing : ∀ index, ¬0 < (script index).1.result)
    (sock : BaseSocket) (buffer size : Nat) :
    KeepsInvariant (Code.instr program) Effect.reply Occurrence.countRecv
      (Occurrence.Scripted script) (fun _ _ => True)
      (fun nexts code index => nexts = [] ∧ Tries script sock buffer size code index) where
  ret := fun holds _ => nomatch holds.1
  await := fun holds awaits => absurd awaits holds.2.reads.ne_await
  perform := by
    rintro nexts code effect next outcome index ⟨rfl, tries⟩ performs scripted
    refine ⟨trivial, rfl, ?_⟩
    obtain ⟨goesOn, -⟩ | ⟨read, positive, -, result, -⟩ := tries.perform succeed performs scripted
    · exact goesOn
    · exact absurd (by omega) (nothing index)
  wait := fun holds waits _ => ⟨trivial, holds.1, holds.2.wait waits⟩
  suspend := fun holds suspends _ => ⟨trivial, holds.1, holds.2.suspend suspends⟩

/-- Where `read_exactly` is while not enough has come. -/
inductive Unfinished (script : Script) (sock : BaseSocket) (buffer size : Nat) :
    List (Result Own → Code User Own) → Code User Own → Nat → Prop
  | loop (index : Nat) :
      Unfinished script sock buffer size []
        (.tcpReadExactly sock buffer size (script.gained index)) index
  | tries {total index : Nat} {code : Code User Own}
      (counted : script.gained index = total)
      (tries : Tries script sock (buffer + total) (size - total) code index) :
      Unfinished script sock buffer size [Code.readSome sock buffer size total] code index
  | received {total read index : Nat} (counted : script.gained index = total + read) :
      Unfinished script sock buffer size [Code.readSome sock buffer size total]
        (.ret (.size read)) index

/-- Where too little comes and no round fails, `read_exactly` goes on. -/
theorem keepsInvariant_unfinished
    (program : User → UserInstr User Own Local)
    (succeed : ∀ index, ¬script.Fails index)
    (sock : BaseSocket) (buffer size : Nat) :
    KeepsInvariant (Code.instr program) Effect.reply Occurrence.countRecv
      (Occurrence.Scripted script) (fun _ _ => True)
      (Unfinished script sock buffer size) where
  ret := by
    rintro nexts next code value index unfinished returns
    cases unfinished with
    | tries counted tries => exact absurd returns tries.reads.ne_ret
    | received counted =>
        cases returns
        rw [Code.readSome, ← counted]
        exact .loop index
  await := by
    rintro nexts code child next index unfinished awaits
    cases unfinished with
    | loop =>
        rw [Code.instr] at awaits
        split_ifs at awaits
        cases awaits
        exact .tries rfl ⟨.loop, Or.inl rfl⟩
    | tries counted tries => exact absurd awaits tries.reads.ne_await
    | received counted => cases awaits
  perform := by
    rintro nexts code effect next outcome index unfinished performs scripted
    refine ⟨trivial, ?_⟩
    cases unfinished with
    | loop =>
        rw [Code.instr] at performs
        split_ifs at performs
    | tries counted tries =>
        obtain ⟨goesOn, same⟩ | ⟨read, -, returns, -, more⟩ :=
          tries.perform succeed performs scripted
        · exact .tries (same.trans counted) goesOn
        · rw [returns]
          exact .received (more.trans (counted ▸ rfl))
    | received counted => cases performs
  wait := by
    rintro nexts code next index unfinished waits -
    refine ⟨trivial, ?_⟩
    cases unfinished with
    | loop =>
        rw [Code.instr] at waits
        split_ifs at waits
    | tries counted tries => exact .tries counted (tries.wait waits)
    | received counted => cases waits
  suspend := by
    rintro nexts code next index unfinished suspends -
    refine ⟨trivial, ?_⟩
    cases unfinished with
    | loop =>
        rw [Code.instr] at suspends
        split_ifs at suspends
    | tries counted tries => exact .tries counted (tries.suspend suspends)
    | received counted => cases suspends

/-! ## When reading ends -/

theorem Script.gained_le {first second : Nat} (le : first ≤ second) :
    script.gained first ≤ script.gained second := by
  induction le with
  | refl => exact le_rfl
  | step _ inductionHypothesis => exact inductionHypothesis.trans (Nat.le_add_right _ _)

/-- Nothing comes and nothing fails any more. -/
theorem Script.Closes.not_fails
    {closed : Nat} (closes : script.Closes closed) (late : closed ≤ index) :
    ¬script.Fails index := by
  obtain ⟨zero, readable⟩ := closes index late
  rintro (failed | ⟨-, error⟩)
  · exact (Answer.failed_neg failed).ne zero
  · exact nomatch readable.symm.trans error

theorem Script.Closes.gained_eq
    {closed : Nat} (closes : script.Closes closed) (late : closed ≤ index) :
    script.gained index = script.gained closed := by
  induction late with
  | refl => rfl
  | @step index late inductionHypothesis =>
      rw [Script.gained, (closes index late).1, inductionHypothesis]
      rfl

theorem completes_read_iff
    {closed : Nat} (closes : script.Closes closed) :
    (Code.read sock buffer size).Completes program script ↔
      ∃ index < closed, 0 < (script index).1.result ∨ script.Fails index := by
  constructor
  · rintro ⟨events, value, run, follows⟩
    by_contra never
    have late : ∀ index, 0 < (script index).1.result ∨ script.Fails index → False := by
      intro index ends
      by_cases early : index < closed
      · exact never ⟨index, early, ends⟩
      · have late := Nat.le_of_not_lt early
        obtain some | fails := ends
        · exact some.ne' (closes index late).1
        · exact closes.not_fails late fails
    have guarantees := (keepsInvariant_tries program (fun index fails => late index (Or.inr fails))
      (fun index some => late index (Or.inl some)) sock buffer size).guarantees run follows
      ⟨rfl, .loop, Or.inl rfl⟩
    obtain ⟨code, ⟨-, tries⟩, returns⟩ := guarantees.finished value rfl
    exact tries.reads.ne_ret returns
  · rintro ⟨index, -, ends⟩
    exact Code.read_completesFrom index (by rwa [Nat.zero_add])

theorem completes_readExactly_iff
    {closed : Nat} (closes : script.Closes closed) (legal : script.Legal size) :
    (Code.readExactly sock buffer size).Completes program script ↔
      size ≤ script.gained closed ∨ ∃ index < closed, script.Fails index := by
  constructor
  · rintro ⟨events, value, run, follows⟩
    by_contra never
    obtain ⟨less, succeed⟩ := not_or.mp never
    have late : ∀ index, ¬script.Fails index := by
      intro index fails
      by_cases early : index < closed
      · exact succeed ⟨index, early, fails⟩
      · exact closes.not_fails (Nat.le_of_not_lt early) fails
    have guarantees := (keepsInvariant_unfinished program late sock buffer size).guarantees run
      follows (.loop 0)
    have small : ∀ index, script.gained index < size := by
      intro index
      rcases le_total index closed with early | late
      · exact (Script.gained_le early).trans_lt (Nat.lt_of_not_le less)
      · exact closes.gained_eq late ▸ Nat.lt_of_not_le less
    obtain ⟨code, unfinished, returns⟩ := guarantees.finished value rfl
    generalize events.foldl Occurrence.countRecv 0 = index at unfinished
    cases unfinished with
    | loop =>
        rw [Code.instr, if_pos (small index).ne] at returns
        cases returns
  · intro ends
    apply Code.CompletesFrom.readExactly (Nat.zero_le size)
    intro positive
    obtain whole | ⟨index, -, fails⟩ := ends
    · exact Code.readSome_completesFrom legal 0 closed (Or.inl (by rwa [Nat.zero_add])) positive
    · exact Code.readSome_completesFrom legal 0 index (Or.inr (by rwa [Nat.zero_add])) positive

variable (program) in
/-- Once the peer has closed, `read` and `read_exactly` return only on what came or
failed before. -/
theorem completes_iff
    {closed : Nat} (closes : script.Closes closed) (sock : BaseSocket) (buffer : Address) :
    (∀ size, (Code.read sock buffer size).Completes program script ↔
      ∃ index < closed, 0 < (script index).1.result ∨ script.Fails index) ∧
    ∀ size, script.Legal size →
      ((Code.readExactly sock buffer size).Completes program script ↔
        size ≤ script.gained closed ∨ ∃ index < closed, script.Fails index) :=
  ⟨fun _ => completes_read_iff closes, fun _ => completes_readExactly_iff closes⟩

/-- A peer that sends five bytes and closes. -/
def fiveBytes : Script
  | 0 => (⟨5, .other⟩, true)
  | _ + 1 => (⟨0, .other⟩, true)

theorem completes_fiveBytes :
    Code.Completes (Empty.elim : Empty → UserInstr Empty Empty Empty) fiveBytes
        (.read ⟨3, 4⟩ 4096 5) ∧
      Code.Completes (Empty.elim : Empty → UserInstr Empty Empty Empty) fiveBytes
        (.readExactly ⟨3, 4⟩ 4096 5) := by
  have closes : fiveBytes.Closes 1
    | 0, late => absurd late (by decide)
    | _ + 1, _ => ⟨rfl, rfl⟩
  have legal : fiveBytes.Legal 5
    | 0, _ => le_rfl
    | _ + 1, _ => Int.natCast_nonneg _
  obtain ⟨read, readExactly⟩ := completes_iff Empty.elim closes ⟨3, 4⟩ 4096
  exact ⟨(read 5).mpr ⟨0, by decide, Or.inl (by decide)⟩,
    (readExactly 5 legal).mpr (Or.inl (by decide))⟩

/-- A peer that closes and has sent nothing. -/
def closedPeer : Script := fun _ => (⟨0, .other⟩, true)

/-- With nothing to read, `read` and `read_exactly` go on for ever. -/
theorem not_completes_closedPeer :
    closedPeer.Closes 0 ∧ closedPeer.Legal 16 ∧
      ¬Code.Completes (Empty.elim : Empty → UserInstr Empty Empty Empty) closedPeer
        (.read ⟨3, 4⟩ 4096 16) ∧
      ¬Code.Completes (Empty.elim : Empty → UserInstr Empty Empty Empty) closedPeer
        (.readExactly ⟨3, 4⟩ 4096 16) := by
  have closes : closedPeer.Closes 0 := fun _ _ => ⟨rfl, rfl⟩
  have legal : closedPeer.Legal 16 := fun _ _ => Int.natCast_nonneg _
  refine ⟨closes, legal, ?_, ?_⟩
  · rw [completes_read_iff closes]
    exact fun ends => Nat.not_lt_zero _ ends.choose_spec.1
  · rw [completes_readExactly_iff closes legal]
    rintro (whole | ends)
    · exact absurd whole (by decide)
    · exact Nat.not_lt_zero _ ends.choose_spec.1

end Cppio
