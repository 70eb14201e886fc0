import Cppio.Library.Machine
import Cppio.Network.Win32Operations

/-!
# What a completion packet points to

A call that starts an operation, at once or not, leaves a packet with the address of the
`overlapped` to come, and `iocp::run` writes to it.  A coroutine that does not suspend until
then is destroyed before, and its `overlapped` with it.  The six coroutines with the queue and
the completion port of a reactor with one worker.
-/

namespace Cppio
namespace Win32

/-- Where a coroutine is. -/
inductive Place
  | running (code : Code)
  | suspended (code : Code)
  | returned (value : Result)

/-- The task of an operation, and what the reactor has of it. -/
structure Port where
  place : Place
  /-- `m_state`. -/
  state : ScheduleType
  /-- How often the task is in `m_tasks`. -/
  queued : Nat
  /-- How many packets with its `overlapped` are to come. -/
  started : Nat
  overlapped : Completion
  /-- `iocp::run` has used an `overlapped` that was gone. -/
  dangling : Bool

/-- A step of the coroutine, with the answer to its call, or of the worker. -/
inductive Label
  | answer (answer : Answer)
  | found (found : Bool)
  | go
  /-- `process_tasks` takes the task out of `m_tasks`. -/
  | pop
  /-- `iocp::run` takes a packet. -/
  | deliver (completion : Completion)
  deriving DecidableEq

namespace Port

/-- The operation's coroutine is resumed for the first time. -/
def start (operation : Operation) : Port where
  place := .running operation.code
  state := .run
  queued := 0
  started := 0
  overlapped := ⟨false, 0⟩
  dangling := false

/-- What the coroutine does next. -/
def act (s : Port) (code : Code) (label : Label) : Option Port :=
  match code.instr, label with
  | .perform (.call winCall) next, .answer answer =>
      some { s with
        place := .running (next answer)
        started := if winCall.start answer = some .started then s.started + 1 else s.started }
  | .perform (.connectExPtr _) next, .found found =>
      some { s with place := .running (next found) }
  | .perform .overlapped next, .go =>
      some { s with place := .running (next ()), overlapped := ⟨false, 0⟩ }
  | .perform .completion next, .go => some { s with place := .running (next s.overlapped) }
  | .wait next, .go => some { s with place := .running next, state := .wait }
  | .suspend next, .go =>
      some { s with
        place := .suspended next
        queued := if s.state = .run then s.queued + 1 else s.queued }
  | .ret value, .go => some { s with place := .returned value }
  | _, _ => none

/-- `basic_task::wake`, after `iocp::run` has written to the `overlapped`. -/
def wake (s : Port) (completion : Completion) : Port :=
  { s with overlapped := completion, state := .run, queued := s.queued + 1 }

/-- One step of the machine. -/
def step (s : Port) (label : Label) : Option Port :=
  match s.place, label with
  | .running code, label => s.act code label
  | .suspended code, .pop =>
      match s.queued with
      | 0 => none
      | queued + 1 =>
          if s.state = .wait then some { s with queued := queued }
          else some { s with queued := queued, place := .running code }
  | .suspended _, .deliver completion =>
      match s.started with
      | 0 => none
      | started + 1 => some ({ s with started := started }.wake completion)
  | .returned _, .deliver completion =>
      match s.started with
      | 0 => none
      | started + 1 => some { { s with started := started }.wake completion with dangling := true }
  | _, _ => none

end Port

/-! ## Suspending until the packet has come -/

/-- Whether the operation has been started, and how. -/
inductive Mode
  /-- No packet is to come; the task may be marked `kWait`, and a packet may have come. -/
  | idle (waits delivered : Bool)
  /-- A packet is to come. -/
  | started (waits : Bool)

/-- Wherever the code goes, it suspends in `kWait` while a packet is to come, and only then, and
reads what the packet has left, which is so. -/
def Heeds (likely : Completion → Prop) : Mode → Code → Prop
  | .idle waits delivered, .call winCall next => ∀ answer,
      Heeds likely
        (if winCall.start answer = some .started then .started waits else .idle waits delivered)
        (next answer)
  | .idle waits delivered, .connectExPtr _ next =>
      ∀ found, Heeds likely (.idle waits delivered) (next found)
  | .idle waits _, .overlapped next => Heeds likely (.idle waits false) next
  | .idle waits delivered, .completion next => delivered = true ∧ ∀ completion,
      likely completion → Heeds likely (.idle waits delivered) (next completion)
  | .idle _ delivered, .wait next => Heeds likely (.idle true delivered) next
  | .started _, .wait next => Heeds likely (.started true) next
  | .started waits, .suspend next => waits = true ∧ Heeds likely (.idle false true) next
  | .idle _ _, .ret _ => True
  | .idle _ _, .tcpWrite _ _ _ _ => True
  | .idle waits _, .accept _ _ => waits = true ∧ ∀ completion, likely completion →
      completion.success = true
  | _, _ => False

variable {likely : Completion → Prop} {mode : Mode} {code next : Code}

theorem heeds_ite
    {condition : Prop} [Decidable condition] {first second : Code}
    (positive : condition → Heeds likely mode first)
    (negative : ¬condition → Heeds likely mode second) :
    Heeds likely mode (if condition then first else second) := by
  split_ifs with holds
  · exact positive holds
  · exact negative holds

theorem heeds_fail (waits delivered : Bool) (error : ErrorCode) :
    Heeds likely (.idle waits delivered) (Code.fail error) := trivial

/-- A call with its answer, for the calls that fail with `SOCKET_ERROR`. -/
theorem heeds_called
    {winCall : Call} {answer : Answer} {waits delivered : Bool} {started : Code}
    (starts : winCall.start answer =
      if answer.result = Code.socketError ∧ answer.error ≠ .ioPending then some .refused
      else some .started)
    (heeds : Heeds likely (.started waits) started) :
    Heeds likely
      (if winCall.start answer = some .started then .started waits else .idle waits delivered)
      (if answer.result = Code.socketError ∧ answer.error ≠ .ioPending then Code.fail .closed
        else started) := by
  rw [starts]
  by_cases failed : answer.result = Code.socketError ∧ answer.error ≠ .ioPending
  · rw [if_pos failed, if_pos failed, if_neg (by decide)]
    exact heeds_fail _ _ _
  · rw [if_neg failed, if_neg failed, if_pos rfl]
    exact heeds

theorem heeds_once
    {winCall : Call} {next : Completion → Code}
    (starts : ∀ answer, winCall.start answer =
      if answer.result = Code.socketError ∧ answer.error ≠ .ioPending then some .refused
      else some .started)
    (returns : ∀ completion, Heeds likely (.idle false true) (next completion)) :
    Heeds likely (.idle false false) (Code.once winCall next) := fun answer =>
  heeds_called (starts answer) ⟨rfl, rfl, fun completion _ => returns completion⟩

theorem heeds_sentSome
    (sock : SocketT) (buffer : Address) (size total : Nat) (waits delivered : Bool)
    (answer : Answer) :
    Heeds likely
      (if (Call.wsaSend sock (buffer + total) (wsaBufLen (size - total))).start answer =
        some .started then .started waits else .idle waits delivered)
      (Code.sentSome sock buffer size total answer) := by
  refine heeds_called rfl ⟨rfl, rfl, fun completion _ => ?_⟩
  exact heeds_ite (fun _ => trivial) fun _ => trivial

theorem heeds_accepted
    (sock out : SocketT) (delivered : Bool)
    (succeeds : ∀ completion, likely completion → completion.success = true) (answer : Answer) :
    Heeds likely
      (if (Call.acceptEx sock out).start answer = some .started then .started true
        else .idle true delivered)
      (Code.accepted sock out answer) := by
  have again : Heeds likely (.idle true delivered) (.accept sock out) := ⟨rfl, succeeds⟩
  rw [Call.start, Code.accepted]
  by_cases started : answer.result = Code.winTrue ∨ answer.error = .ioPending
  · rw [if_pos started, if_pos started, if_pos rfl]
    refine ⟨rfl, rfl, fun completion here => ?_⟩
    dsimp only
    rw [if_pos (succeeds completion here)]
    exact fun _ => trivial
  · rw [if_neg started, if_neg started]
    by_cases refused : answer.error ≠ .connReset
    · rw [if_pos refused, if_pos refused, if_neg (by decide)]
      exact heeds_fail _ _ _
    · rw [if_neg refused, if_neg refused, if_neg (by decide)]
      exact again

/-- The packets of `AcceptEx` carry no error. -/
def Operation.Likely : Operation → Completion → Prop
  | .accept _, completion => completion.success = true
  | _, _ => True

theorem heeds_code (operation : Operation) :
    Heeds operation.Likely (.idle false false) operation.code := by
  cases operation with
  | connect endpoint =>
      intro created
      refine heeds_ite (fun _ => heeds_fail _ _ _) fun _ rc => ?_
      refine heeds_ite (fun _ => heeds_fail _ _ _) fun _ found => ?_
      refine heeds_ite (fun _ => heeds_fail _ _ _) fun _ answer => ?_
      rw [Call.start]
      by_cases started : answer.result = Code.winTrue ∨ answer.error = .ioPending
      · rw [if_pos started, if_pos rfl]
        dsimp only
        rw [if_pos started]
        exact ⟨rfl, fun _ => ⟨rfl, fun _ _ => heeds_ite (fun _ => trivial) fun _ => trivial⟩⟩
      · rw [if_neg started, if_neg (by decide)]
        dsimp only
        rw [if_neg started]
        exact heeds_fail _ _ _
  | tcpRead sock buffer size =>
      exact heeds_once (fun _ => rfl) fun _ => heeds_ite (fun _ => trivial) fun _ => trivial
  | tcpWrite sock buffer size => trivial
  | udpRead sock buffer size =>
      exact heeds_once (fun _ => rfl) fun _ => heeds_ite (fun _ => trivial) fun _ => trivial
  | udpWrite sock endpoint buffer size =>
      exact heeds_once (fun _ => rfl) fun _ => heeds_ite (fun _ => trivial) fun _ => trivial
  | accept sock =>
      intro created
      refine heeds_ite (fun _ => heeds_fail _ _ _) fun _ => ?_
      exact ⟨rfl, fun _ here => here⟩

namespace Port

/-- The coroutine is at some code as it should be. -/
inductive Sound (likely : Completion → Prop) (s : Port) : Prop
  /-- It runs, and no packet is to come. -/
  | idle {code : Code} {waits delivered : Bool} (here : s.place = .running code)
      (state : s.state = .wait ↔ waits = true) (nothing : s.started = 0) (absent : s.queued = 0)
      (left : delivered = true → likely s.overlapped)
      (heeds : Heeds likely (.idle waits delivered) code)
  /-- It runs, and is on its way to a suspension. -/
  | started {code : Code} {waits : Bool} (here : s.place = .running code)
      (state : s.state = .wait ↔ waits = true) (one : s.started = 1) (absent : s.queued = 0)
      (heeds : Heeds likely (.started waits) code)
  /-- It waits for the packet. -/
  | waiting {code : Code} (here : s.place = .suspended code) (state : s.state = .wait)
      (one : s.started = 1) (absent : s.queued = 0) (heeds : Heeds likely (.idle false true) code)
  /-- The packet has come. -/
  | woken {code : Code} (here : s.place = .suspended code) (state : s.state = .run)
      (nothing : s.started = 0) (present : s.queued = 1) (left : likely s.overlapped)
      (heeds : Heeds likely (.idle false true) code)
  | returned {value : Result} (here : s.place = .returned value) (nothing : s.started = 0)

end Port

/-- A call of a coroutine that has not started its operation. -/
theorem Heeds.call
    {winCall : Call} {next : Answer → Code} {waits delivered : Bool}
    (heeds : Heeds likely (.idle waits delivered) code)
    (calls : code.instr = .perform (.call winCall) next) (answer : Answer) :
    Heeds likely
      (if winCall.start answer = some .started then .started waits else .idle waits delivered)
      (next answer) := by
  cases code with
  | call winCall' next' =>
      cases calls
      exact heeds answer
  | tcpWrite sock buffer size total =>
      rw [Code.instr] at calls
      split_ifs at calls
      cases calls
      exact heeds_sentSome sock buffer size total waits delivered answer
  | accept sock out =>
      cases calls
      obtain ⟨rfl, succeeds⟩ := heeds
      exact heeds_accepted sock out delivered succeeds answer
  | _ => cases calls

/-- A coroutine that has started its operation only suspends, perhaps after `wait()`. -/
theorem Heeds.started_cases
    {waits : Bool} (heeds : Heeds likely (.started waits) code) :
    (∃ next, code = .wait next ∧ Heeds likely (.started true) next) ∨
      ∃ next, code = .suspend next ∧ waits = true ∧ Heeds likely (.idle false true) next := by
  cases code with
  | wait next => exact Or.inl ⟨next, rfl, heeds⟩
  | suspend next => exact Or.inr ⟨next, rfl, heeds⟩
  | _ => exact heeds.elim

namespace Port

variable {s next : Port} {label : Label}

theorem sound_start (operation : Operation) : (start operation).Sound operation.Likely := by
  have running : ScheduleType.run = .wait ↔ false = true := by decide
  have nothing : false = true → operation.Likely (start operation).overlapped :=
    fun none => absurd none Bool.false_ne_true
  exact .idle rfl running rfl rfl nothing (heeds_code operation)

/-- A step of a coroutine that has not started its operation. -/
theorem Sound.act_idle
    {code : Code} {waits delivered : Bool} (state : s.state = .wait ↔ waits = true)
    (nothing : s.started = 0) (absent : s.queued = 0)
    (left : delivered = true → likely s.overlapped)
    (heeds : Heeds likely (.idle waits delivered) code) (acted : s.act code label = some next) :
    Sound likely next ∧ next.dangling = s.dangling := by
  unfold Port.act at acted
  split at acted
  · next winCall after answer calls =>
      obtain rfl := Option.some.inj acted
      have here := heeds.call calls answer
      refine ⟨?_, rfl⟩
      by_cases started : winCall.start answer = some .started
      · rw [if_pos started] at here
        simp only [started, if_true]
        exact .started rfl state (congrArg (· + 1) nothing) absent here
      · rw [if_neg started] at here
        simp only [started, if_false]
        exact .idle rfl state nothing absent left here
  · next sock after found calls =>
      obtain rfl := Option.some.inj acted
      cases code with
      | connectExPtr sock' after' =>
          cases calls
          exact ⟨.idle rfl state nothing absent left (heeds found), rfl⟩
      | tcpWrite =>
          rw [Code.instr] at calls
          split_ifs at calls
          cases calls
      | _ => cases calls
  · next after calls =>
      obtain rfl := Option.some.inj acted
      cases code with
      | overlapped after' =>
          cases calls
          have fresh : false = true → likely ⟨false, 0⟩ := fun none =>
            absurd none Bool.false_ne_true
          exact ⟨.idle rfl state nothing absent fresh heeds, rfl⟩
      | tcpWrite =>
          rw [Code.instr] at calls
          split_ifs at calls
          cases calls
      | _ => cases calls
  · next after calls =>
      obtain rfl := Option.some.inj acted
      cases code with
      | completion after' =>
          cases calls
          obtain ⟨rfl, later⟩ := heeds
          exact ⟨.idle rfl state nothing absent left (later _ (left rfl)), rfl⟩
      | tcpWrite =>
          rw [Code.instr] at calls
          split_ifs at calls
          cases calls
      | _ => cases calls
  · next after waits' =>
      obtain rfl := Option.some.inj acted
      obtain rfl := Code.instr_eq_wait waits'
      exact ⟨.idle rfl (iff_of_true rfl rfl) nothing absent left heeds, rfl⟩
  · next after suspends =>
      obtain rfl := Code.instr_eq_suspend suspends
      exact heeds.elim
  · obtain rfl := Option.some.inj acted
    exact ⟨.returned rfl nothing, rfl⟩
  · cases acted

theorem Sound.act_started
    {code : Code} {waits : Bool} (state : s.state = .wait ↔ waits = true) (one : s.started = 1)
    (absent : s.queued = 0) (heeds : Heeds likely (.started waits) code)
    (acted : s.act code label = some next) :
    Sound likely next ∧ next.dangling = s.dangling := by
  obtain ⟨after, rfl, later⟩ | ⟨after, rfl, rfl, later⟩ := heeds.started_cases
  · cases label with
    | go =>
        obtain rfl := Option.some.inj acted
        exact ⟨.started rfl (iff_of_true rfl rfl) one absent later, rfl⟩
    | _ => cases acted
  · cases label with
    | go =>
        obtain rfl := Option.some.inj acted
        have waiting : s.state = .wait := state.mpr rfl
        refine ⟨.waiting rfl waiting one ?_ later, rfl⟩
        simp only [waiting, reduceCtorEq, if_false]
        exact absent
    | _ => cases acted

/-- Every step leaves the coroutine as it should be, and no packet comes too late. -/
theorem Sound.step
    (sound : Sound likely s) (defined : s.dangling = false)
    (likelyHere : ∀ completion, label = .deliver completion → likely completion)
    (stepped : s.step label = some next) : Sound likely next ∧ next.dangling = false := by
  unfold Port.step at stepped
  cases sound with
  | idle here state nothing absent left heeds =>
      rw [here] at stepped
      obtain ⟨soundNext, same⟩ := act_idle state nothing absent left heeds stepped
      exact ⟨soundNext, same.trans defined⟩
  | started here state one absent heeds =>
      rw [here] at stepped
      obtain ⟨soundNext, same⟩ := act_started state one absent heeds stepped
      exact ⟨soundNext, same.trans defined⟩
  | waiting here state one absent heeds =>
      rw [here] at stepped
      cases label with
      | pop => simp [absent] at stepped
      | deliver completion =>
          simp only [one] at stepped
          obtain rfl := Option.some.inj stepped
          exact ⟨.woken rfl rfl rfl (congrArg (· + 1) absent) (likelyHere completion rfl) heeds,
            defined⟩
      | _ => cases stepped
  | woken here state nothing present left heeds =>
      rw [here] at stepped
      cases label with
      | pop =>
          simp only [present, state, reduceCtorEq, if_false] at stepped
          obtain rfl := Option.some.inj stepped
          have running : ScheduleType.run = .wait ↔ false = true := by decide
          exact ⟨.idle rfl running nothing rfl (fun _ => left) heeds, defined⟩
      | deliver completion => simp [nothing] at stepped
      | _ => cases stepped
  | returned here nothing =>
      rw [here] at stepped
      cases label with
      | deliver completion => simp [nothing] at stepped
      | _ => cases stepped

/-- Where the packet carries no error, if it is one of `AcceptEx`. -/
def PacketsSucceed (operation : Operation) (_ : Port) (label : Label) : Prop :=
  ∀ completion, label = .deliver completion → operation.Likely completion

/-- What a coroutine that is not running has to do with packets. -/
structure Settled (s : Port) : Prop where
  /-- No packet has come too late. -/
  defined : s.dangling = false
  /-- No packet comes after the coroutine has returned. -/
  returned : ∀ value, s.place = .returned value → s.started = 0
  /-- While a packet is to come, the coroutine is not resumed, and afterwards it is. -/
  suspended : ∀ code, s.place = .suspended code →
    s.state = .wait ∧ s.started = 1 ∧ s.queued = 0 ∨ s.state = .run ∧ s.started = 0 ∧ s.queued = 1

theorem Sound.settled (sound : Sound likely s) (defined : s.dangling = false) : Settled s := by
  refine ⟨defined, fun value here => ?_, fun code here => ?_⟩
  · cases sound with
    | idle there => cases here.symm.trans there
    | started there => cases here.symm.trans there
    | waiting there => cases here.symm.trans there
    | woken there => cases here.symm.trans there
    | returned _ nothing => exact nothing
  · cases sound with
    | idle there => cases here.symm.trans there
    | started there => cases here.symm.trans there
    | waiting _ state one absent => exact Or.inl ⟨state, one, absent⟩
    | woken _ state nothing present => exact Or.inr ⟨state, nothing, present⟩
    | returned there => cases here.symm.trans there

/-- On Win32 no `overlapped` is gone when its packet comes, whatever the calls return, at once
or not, and whenever and however they complete: a coroutine suspends until its packet has come,
is resumed then, and returns only without one to come.  `accept` does so where no packet of
`AcceptEx` carries an error. -/
theorem overlapped_outlives_packet
    (operation : Operation) {labels : List Label} {last : Port}
    (guarded : Machine.AllSteps step (PacketsSucceed operation) (start operation) labels)
    (ran : Machine.run step (start operation) labels = some last) : Settled last := by
  have preserved : ∀ (s : Port) (label : Label) (next : Port),
      Sound operation.Likely s ∧ s.dangling = false → PacketsSucceed operation s label →
        s.step label = some next → Sound operation.Likely next ∧ next.dangling = false :=
    fun _ _ _ held succeed stepped => held.1.step held.2 succeed stepped
  obtain ⟨sound, defined⟩ := Machine.invariant_of_allSteps preserved
    ⟨sound_start operation, rfl⟩ guarded ran
  exact sound.settled defined

/-- `WSARecv` returns at once, and its packet comes later. -/
def readAtOnce : List Label :=
  [.go, .go, .answer ⟨0, .other⟩, .go, .deliver ⟨true, 5⟩, .pop, .go, .go]

theorem overlapped_outlives_packet_readAtOnce :
    ∃ last, Machine.run step (start (.tcpRead 3 100 8)) readAtOnce = some last ∧
      last.place = .returned (.size 5) ∧ Settled last := by
  obtain ⟨last, ran, returned⟩ : ∃ last,
      Machine.run step (start (.tcpRead 3 100 8)) readAtOnce = some last ∧
        last.place = .returned (.size 5) := ⟨_, rfl, rfl⟩
  have guarded : Machine.AllSteps step (PacketsSucceed (.tcpRead 3 100 8))
      (start (.tcpRead 3 100 8)) readAtOnce :=
    Machine.allSteps_of_forall (fun _ _ _ _ => trivial) _ _
  exact ⟨last, ran, returned, overlapped_outlives_packet _ guarded ran⟩

/-- `AcceptEx` fails after it has started; the coroutine calls it again without `wait()`, is
resumed at once, and returns when the third call fails. -/
def failedAccept : List Label :=
  [.go, .answer ⟨7, .other⟩, .go, .answer ⟨1, .other⟩, .go, .deliver ⟨false, 0⟩, .pop, .go,
    .answer ⟨0, .ioPending⟩, .go, .pop, .go, .answer ⟨0, .other⟩, .go, .deliver ⟨false, 0⟩]

/-- Where a packet of `AcceptEx` carries an error, `accept` may return before the next one. -/
theorem accept_returns_early (sock : SocketT) :
    ∃ last, Machine.run step (start (.accept sock)) failedAccept = some last ∧
      last.dangling = true := ⟨_, rfl, rfl⟩

end Port

end Win32
end Cppio
