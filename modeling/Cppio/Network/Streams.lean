import Cppio.Network.TcpReading
import Cppio.Network.TcpWriting
import Cppio.Reactor.Records
import Cppio.Reactor.SystemCalls

/-!
# From one task to another

A task writes to a connection, and another one reads from it, perhaps in another
reactor.  Whatever else these tasks and all others do, a call of `read_exactly` that
succeeds has the next bytes of what the calls of `write` were given.
-/

namespace Cppio

open Recording

variable {User Own Local : Type}

namespace Occurrence

/-- The bytes that the kernel accepts on the descriptor. -/
def sentOn (memory : Memory) (out : SocketT) : Occurs User Own Local → List UInt8
  | .performed (.syscall (.send sock start _)) answer =>
      if sock = out then memory.load start answer.result.toNat else []
  | _ => []

/-- How many bytes the kernel gives out on the descriptor. -/
def takenOn (inp : SocketT) : Occurs User Own Local → Nat
  | .performed (.syscall (.recv sock _ _)) answer =>
      if sock = inp then answer.result.toNat else 0
  | _ => 0

/-- How many bytes the kernel accepts on the descriptor. -/
def acceptedOn (out : SocketT) : Occurs User Own Local → Nat
  | .performed (.syscall (.send sock _ _)) answer =>
      if sock = out then answer.result.toNat else 0
  | _ => 0

end Occurrence

/-- How many bytes the kernel has accepted on the descriptor. -/
def acceptedOn (out : SocketT) (events : List (Occurs User Own Local)) : Nat :=
  (events.map (Occurrence.acceptedOn out)).sum

/-- The bytes that the kernel has accepted on the descriptor. -/
def sentOn (memory : Memory) (out : SocketT) (events : List (Occurs User Own Local)) :
    List UInt8 :=
  events.flatMap (Occurrence.sentOn memory out)

/-- How many bytes the kernel has given out on the descriptor. -/
def takenOn (inp : SocketT) (events : List (Occurs User Own Local)) : Nat :=
  (events.map (Occurrence.takenOn inp)).sum

/-- What a call of `write` offers to the kernel on the descriptor. -/
def Act.offers (memory : Memory) (out : SocketT) : Act User Own Local → List UInt8
  | .called (.tcpWrite sock buffer size) _ _ =>
      if sock.outSocket = out then memory.load buffer size else []
  | _ => []

/-- What the calls of `write` offer on the descriptor, each call with its memory. -/
def offeredBy (out : SocketT) (turns : List (Act User Own Local × Memory)) : List UInt8 :=
  turns.flatMap fun turn => turn.1.offers turn.2 out

/-- What the kernel has accepted of them. -/
def sentBy (out : SocketT) (turns : List (Act User Own Local × Memory)) : List UInt8 :=
  turns.flatMap fun turn => sentOn turn.2 out turn.1.events

/-- A call of `write` on the descriptor has succeeded, if it has returned. -/
def Act.Succeeds (out : SocketT) : Act User Own Local → Prop
  | .called (.tcpWrite sock _ _) _ (some value) =>
      sock.outSocket = out → ∃ size, value = .size size
  | _ => True

/-! ## Writing -/

section

variable {partly : Prop} {program : User → UserInstr User Own Local} {out inp : SocketT}
variable {start : Start User} {events : List (Occurs User Own Local)}
variable {last : Option (Result Own)}

/-- What is counted is recorded, if nothing is counted of a suspension. -/
theorem sum_map_filter
    {count : Occurs User Own Local → Nat} (suspends : count .suspended = 0)
    (events : List (Occurs User Own Local)) :
    ((events.filter recorded).map count).sum = (events.map count).sum := by
  induction events with
  | nil => rfl
  | cons occurrence events inductionHypothesis =>
      rw [List.map_cons, List.sum_cons, ← inductionHypothesis]
      cases occurrence with
      | suspended => rw [suspends, Nat.zero_add]; rfl
      | _ => rfl

theorem acceptedOn_filter (events : List (Occurs User Own Local)) :
    acceptedOn out (events.filter recorded) = acceptedOn out events :=
  sum_map_filter rfl events

theorem acceptedOn_append (first second : List (Occurs User Own Local)) :
    acceptedOn out (first ++ second) = acceptedOn out first + acceptedOn out second := by
  rw [acceptedOn, List.map_append, List.sum_append]
  rfl

theorem length_sentOn (memory : Memory) (events : List (Occurs User Own Local)) :
    (sentOn memory out events).length = acceptedOn out events := by
  rw [sentOn, List.length_flatMap, acceptedOn]
  congr 1
  refine List.map_congr_left fun occurrence _ => ?_
  unfold Occurrence.sentOn Occurrence.acceptedOn
  split
  · split_ifs
    · exact Memory.length_load ..
    · rfl
  · rfl

theorem takenOn_filter (events : List (Occurs User Own Local)) :
    takenOn inp (events.filter recorded) = takenOn inp events :=
  sum_map_filter rfl events

/-- An operation sends nothing on the descriptor of another. -/
theorem sentOn_eq_nil
    (memory : Memory) (operation : start.IsOperation) (others : start.sendsOn ≠ some out)
    (run : start.code.Advances partly program [] events last) :
    sentOn memory out events = [] := by
  have only := (Code.only_streams operation).executes run
  refine List.flatMap_eq_nil_iff.mpr fun occurrence present => ?_
  have here := only occurrence present
  unfold Occurrence.sentOn
  split
  · split_ifs with same
    · exact absurd (here.1 out (congrArg some same)) others
    · rfl
  · rfl

theorem accept_eq
    (memory : Memory) (bytes : List UInt8) {occurrence : Occurs User Own Local}
    (only : occurrence.Only fun call => ∀ sock, call.sendsOn = some sock → sock = out) :
    occurrence.accept memory bytes = bytes ++ occurrence.sentOn memory out := by
  unfold Occurrence.accept
  split
  · next sock start size answer =>
      have same : sock = out := only sock rfl
      rw [Occurrence.sentOn, if_pos same]
  · next others =>
      have nothing : occurrence.sentOn memory out = [] := by
        unfold Occurrence.sentOn
        split
        · exact absurd rfl (others _ _ _ _)
        · rfl
      rw [nothing, List.append_nil]

theorem foldl_accept_eq
    (memory : Memory) (bytes : List UInt8)
    (only : ∀ occurrence ∈ events, occurrence.Only fun call =>
      ∀ sock, call.sendsOn = some sock → sock = out) :
    events.foldl (Occurrence.accept memory) bytes = bytes ++ sentOn memory out events := by
  induction events generalizing bytes with
  | nil => exact (List.append_nil bytes).symm
  | cons occurrence events inductionHypothesis =>
      obtain ⟨here, later⟩ := List.forall_mem_cons.mp only
      rw [List.foldl_cons, inductionHypothesis _ later, accept_eq memory bytes here,
        List.append_assoc]
      rfl

/-- A call of `write` sends a first part of what it offers, and the whole if it succeeds. -/
theorem sentOn_write
    (memory : Memory) {sock : BaseSocket} {buffer size : Nat}
    (run : (Code.write sock buffer size).Advances partly program [] events last)
    (legal : ∀ occurrence ∈ events, occurrence.Legal) :
    sentOn memory sock.outSocket events <+: memory.load buffer size ∧
      ∀ count, last = some (.size count) →
        sentOn memory sock.outSocket events = memory.load buffer size := by
  obtain ⟨-, sent, le, bytes, returns⟩ := counted_of_executes memory run legal
  have streams : Code.Only (Start.tcpWrite sock buffer size : Start User).Streams
      (Code.write sock buffer size : Code User Own) := Code.only_streams trivial
  have only := streams.executes run
  have whole : accepted memory events = sentOn memory sock.outSocket events :=
    foldl_accept_eq memory [] fun occurrence present => (only occurrence present).imp
      fun call streams sock same => (Option.some.inj (streams.1 sock same)).symm
  rw [← whole, bytes]
  refine ⟨prefix_load memory buffer le, fun count some => ?_⟩
  obtain ⟨rfl, -⟩ | ⟨-, closed⟩ := returns _ some
  · rfl
  · cases closed

/-- A call of an operation sends a first part of what it offers, and the whole where it
has returned and has not failed. -/
theorem sentOn_called
    (memory : Memory) (operation : start.IsOperation)
    (run : start.code.Advances partly program [] events last)
    (legal : ∀ occurrence ∈ events, occurrence.Legal)
    (succeeds : (Act.called start events last).Succeeds out) :
    sentOn memory out events <+: (Act.called start events last).offers memory out ∧
      (last ≠ none →
        sentOn memory out events = (Act.called start events last).offers memory out) := by
  by_cases sends : start.sendsOn = some out
  · cases start with
    | tcpWrite sock buffer size =>
        obtain rfl : sock.outSocket = out := Option.some.inj sends
        obtain ⟨first, whole⟩ := sentOn_write memory run legal
        rw [Act.offers, if_pos rfl]
        refine ⟨first, fun returned => ?_⟩
        obtain ⟨value, rfl⟩ := Option.ne_none_iff_exists'.mp returned
        obtain ⟨count, rfl⟩ := succeeds rfl
        exact whole count rfl
    | _ => cases sends
  · have nothing : (Act.called start events last).offers memory out = [] := by
      cases start with
      | tcpWrite sock buffer size => exact if_neg fun same => sends (congrArg some same)
      | _ => rfl
    rw [sentOn_eq_nil memory operation sends run, nothing]
    exact ⟨List.nil_prefix, fun _ => rfl⟩

/-- An act sends a first part of what it offers, and the whole where it has returned. -/
theorem sentOn_act
    (memory : Memory) {act : Act User Own Local} (runs : act.Runs partly program)
    (legal : ∀ occurrence ∈ act.events, occurrence.Legal) (succeeds : act.Succeeds out) :
    sentOn memory out act.events <+: act.offers memory out ∧
      (act.Returned → sentOn memory out act.events = act.offers memory out) := by
  cases act with
  | called start events last => exact sentOn_called memory runs.1 runs.2 legal succeeds
  | sleeping delay started =>
      cases started with
      | _ => exact ⟨List.nil_prefix, fun _ => rfl⟩
  | _ => exact ⟨List.nil_prefix, fun _ => rfl⟩

theorem length_sentBy (turns : List (Act User Own Local × Memory)) :
    (sentBy out turns).length =
      acceptedOn out ((turns.map Prod.fst).flatMap Act.events) := by
  induction turns with
  | nil => rfl
  | cons turn turns inductionHypothesis =>
      rw [sentBy, List.flatMap_cons, List.length_append, length_sentOn, List.map_cons,
        List.flatMap_cons, acceptedOn_append]
      exact congrArg (_ + ·) inductionHypothesis

/-- While no call of `write` on the descriptor fails, the kernel has accepted a first part
of what these calls were given. -/
theorem prefix_sentBy
    {here : User} {turns : List (Act User Own Local × Memory)}
    (does : Does partly program here (turns.map Prod.fst) last)
    (legal : ∀ act ∈ turns.map Prod.fst, ∀ occurrence ∈ act.events, occurrence.Legal)
    (succeed : ∀ act ∈ turns.map Prod.fst, act.Succeeds out) :
    sentBy out turns <+: offeredBy out turns := by
  have sent : ∀ turn ∈ turns, sentOn turn.2 out turn.1.events <+: turn.1.offers turn.2 out ∧
      (turn.1.Returned →
        sentOn turn.2 out turn.1.events = turn.1.offers turn.2 out) := fun turn present =>
    have among := List.mem_map_of_mem present
    sentOn_act turn.2 (does.runs _ among) (legal _ among) (succeed _ among)
  obtain ⟨before, final, split, returned, most, -⟩ := does.inTurn
  obtain ⟨turnsBefore, turnsFinal, rfl, rfl, rfl⟩ := List.map_eq_append_iff.mp split
  have whole : sentBy out turnsBefore = offeredBy out turnsBefore := by
    refine List.flatMap_congr fun turn present => ?_
    exact (sent turn (List.mem_append_left _ present)).2
      (returned turn.1 (List.mem_map_of_mem present))
  rw [sentBy, offeredBy, List.flatMap_append, List.flatMap_append]
  change sentBy out turnsBefore ++ _ <+: offeredBy out turnsBefore ++ _
  rw [whole]
  apply (List.prefix_append_right_inj _).mpr
  cases turnsFinal with
  | nil => exact List.nil_prefix
  | cons turn rest =>
      rw [List.map_cons, List.length_cons] at most
      obtain rfl : rest = [] := by
        apply List.length_eq_zero_iff.mp
        rw [List.length_map] at most
        omega
      rw [List.flatMap_singleton, List.flatMap_singleton]
      exact (sent turn (List.mem_append_right _ List.mem_cons_self)).1

/-! ## Reading -/

theorem takenOn_append (first second : List (Occurs User Own Local)) :
    takenOn inp (first ++ second) = takenOn inp first + takenOn inp second := by
  rw [takenOn, List.map_append, List.sum_append]
  rfl

/-- The bytes of a stream that have been accepted. -/
theorem load_getD
    {bytes : List UInt8} {start size : Nat} (inside : start + size ≤ bytes.length) :
    Memory.load (fun place => bytes.getD place 0) start size = (bytes.drop start).take size := by
  apply List.ext_getElem
  · rw [Memory.length_load, List.length_take, List.length_drop]
    omega
  · intro index _ within
    rw [List.length_take, List.length_drop] at within
    have bound : start + index < bytes.length := by omega
    simp [Memory.load, List.getD_eq_getElem?_getD, List.getElem?_eq_getElem bound]

theorem receive_consumed
    (stream : Nat → UInt8) (receipt : Receipt) {occurrence : Occurs User Own Local}
    (only : occurrence.Only fun call => ∀ sock, call.receivesOn = some sock → sock = inp) :
    (occurrence.receive stream receipt).consumed =
      receipt.consumed + occurrence.takenOn inp := by
  cases occurrence with
  | performed effect outcome =>
      cases effect with
      | syscall call =>
          cases call with
          | recv sock start size =>
              have same : sock = inp := only sock rfl
              rw [Occurrence.takenOn, if_pos same]
              rfl
          | _ => rfl
      | _ => rfl
  | _ => rfl

theorem foldl_receive_consumed
    (stream : Nat → UInt8) (receipt : Receipt)
    (only : ∀ occurrence ∈ events, occurrence.Only fun call =>
      ∀ sock, call.receivesOn = some sock → sock = inp) :
    (events.foldl (Occurrence.receive stream) receipt).consumed =
      receipt.consumed + takenOn inp events := by
  induction events generalizing receipt with
  | nil => rfl
  | cons occurrence events inductionHypothesis =>
      obtain ⟨here, later⟩ := List.forall_mem_cons.mp only
      rw [List.foldl_cons, inductionHypothesis _ later, receive_consumed stream receipt here,
        Nat.add_assoc]
      rfl

/-- What a call of `read_exactly` that succeeds takes. -/
theorem takenOn_readExactly
    (stream : Nat → UInt8) (memory : Memory) (consumed : Nat)
    {sock : BaseSocket} {buffer size read : Nat}
    (run : (Code.readExactly sock buffer size).Advances partly program [] events
      (some (.size read)))
    (legal : ∀ occurrence ∈ events, occurrence.Legal) :
    takenOn sock.socket events = size ∧
      (receiveAll stream memory consumed events).memory.load buffer size =
        Memory.load stream consumed size := by
  obtain ⟨-, total, -, failed, receipt, returns⟩ :=
    received_of_executes stream memory consumed run legal
  obtain ⟨-, rfl, -⟩ | ⟨closed, -⟩ := returns _ rfl
  · have streams : Code.Only (Start.tcpReadExactly sock buffer total : Start User).Streams
        (Code.readExactly sock buffer total : Code User Own) := Code.only_streams trivial
    have only := streams.executes run
    have counted : (receiveAll stream memory consumed events).consumed =
        consumed + takenOn sock.socket events :=
      foldl_receive_consumed stream _ fun occurrence present => (only occurrence present).imp
        fun call streams sock same => (Option.some.inj (streams.2 sock same)).symm
    rw [receipt] at counted ⊢
    exact ⟨(Nat.add_left_cancel counted).symm, load_receiptOf stream memory consumed _ failed⟩
  · cases closed

/-- Where no more is taken than was sent, a call of `read_exactly` that succeeds has in its
buffer what was sent next. -/
theorem load_readExactly
    {bytes : List UInt8} {acts before after : List (Act User Own Local)}
    {sock : BaseSocket} {buffer size read : Nat}
    (runs : ∀ act ∈ acts, act.Runs partly program)
    (legal : ∀ act ∈ acts, ∀ occurrence ∈ act.events, occurrence.Legal)
    (link : takenOn inp (acts.flatMap Act.events) ≤ bytes.length)
    (here : acts =
      before ++ .called (.tcpReadExactly sock buffer size) events (some (.size read)) :: after)
    (same : sock.socket = inp) (memory : Memory) :
    let consumed := takenOn inp (before.flatMap Act.events)
    consumed + size ≤ bytes.length ∧
      (receiveAll (fun place => bytes.getD place 0) memory consumed events).memory.load
        buffer size = (bytes.drop consumed).take size := by
  intro consumed
  subst same here
  have among : Act.called (.tcpReadExactly sock buffer size) events (some (.size read)) ∈
      before ++ .called (.tcpReadExactly sock buffer size) events (some (.size read)) :: after :=
    List.mem_append_right before List.mem_cons_self
  obtain ⟨taken, loaded⟩ := takenOn_readExactly (fun place => bytes.getD place 0) memory consumed
    (runs _ among).2 (legal _ among)
  have inside : consumed + size ≤ bytes.length := by
    rw [List.flatMap_append, List.flatMap_cons, takenOn_append, takenOn_append] at link
    change consumed + (takenOn sock.socket events + _) ≤ _ at link
    omega
  exact ⟨inside, loaded.trans (load_getD inside)⟩

/-- Of what is offered, the kernel has accepted some, as a stream.  Every call of
`read_exactly` on the descriptor that succeeds has in its buffer what was offered, from
where the reads before it have ended. -/
def Reactor.ReadsOffered
    (offered stream : List UInt8) (inp : SocketT) (acts : List (Act User Own Local)) : Prop :=
  ∀ before after sock buffer size events read,
    acts = before ++ .called (.tcpReadExactly sock buffer size) events (some (.size read)) ::
      after →
    sock.socket = inp → ∀ memory : Memory,
      let consumed := takenOn inp (before.flatMap Act.events)
      (receiveAll (fun place => stream.getD place 0) memory consumed events).memory.load
          buffer size = (offered.drop consumed).take size

end

/-! ## Two records -/

/-- The record of a task is that of these acts of its coroutine, up to where it is
suspended or has returned; or with `partly` up to anywhere. -/
def Did
    (partly : Prop) (program : User → UserInstr User Own Local) (here : User)
    (record : List (Occurs User Own Local)) (acts : List (Act User Own Local)) : Prop :=
  (acts.flatMap Act.events).filter recorded = record ∧
    (acts = [] ∨ ∃ left, Does partly program here acts left)

section

variable {partly : Prop} {program : User → UserInstr User Own Local} {here : User}
variable {out inp : SocketT}
variable {record : List (Occurs User Own Local)} {acts : List (Act User Own Local)}

/-- What a coroutine of the program does, it does call by call. -/
theorem exists_did_of_advances
    {events : List (Occurs User Own Local)} {left : Option (Result Own)}
    (run : (Code.user here).Advances partly program [] events left) :
    ∃ acts, Did partly program here (events.filter recorded) acts := by
  obtain ⟨acts, does, rfl⟩ := Does.exists_acts run
  exact ⟨acts, rfl, Or.inr ⟨left, does⟩⟩

theorem exists_did
    (done : record = [] ∨ ∃ left, Recorded program (.user here) record left) :
    ∃ acts, Did False program here record acts := by
  obtain rfl | ⟨left, events, rfl, executes⟩ := done
  · exact ⟨[], rfl, Or.inl rfl⟩
  · exact exists_did_of_advances executes

theorem Did.runs (did : Did partly program here record acts) :
    ∀ act ∈ acts, act.Runs partly program := by
  obtain ⟨-, rfl | ⟨left, does⟩⟩ := did
  · exact List.forall_mem_nil _
  · exact does.runs

theorem Did.legal
    (did : Did partly program here record acts)
    (legal : ∀ occurrence ∈ record, occurrence.Legal) :
    ∀ act ∈ acts, ∀ occurrence ∈ act.events, occurrence.Legal := by
  rw [← did.1, forall_mem_filter_recorded trivial] at legal
  exact fun act present occurrence among =>
    legal occurrence (List.mem_flatMap.mpr ⟨act, present, among⟩)

theorem Did.sent
    {turns : List (Act User Own Local × Memory)}
    (did : Did partly program here record (turns.map Prod.fst))
    (legal : ∀ occurrence ∈ record, occurrence.Legal)
    (succeed : ∀ act ∈ turns.map Prod.fst, act.Succeeds out) :
    sentBy out turns <+: offeredBy out turns ∧
      (sentBy out turns).length = acceptedOn out record := by
  have written := did.legal legal
  obtain ⟨rfl, nothing | ⟨left, does⟩⟩ := did
  · obtain rfl := List.map_eq_nil_iff.mp nothing
    exact ⟨List.nil_prefix, rfl⟩
  · exact ⟨prefix_sentBy does written succeed, by rw [length_sentBy, acceptedOn_filter]⟩

/-- What one coroutine reads is what another one writes, where no more is taken than was
sent. -/
theorem Did.reads
    {partly' : Prop} {User' Own' Local' : Type}
    {program' : User' → UserInstr User' Own' Local'} {here' : User'}
    {record' : List (Occurs User' Own' Local')} {acts' : List (Act User' Own' Local')}
    (writes : Did partly program here record acts)
    (reads : Did partly' program' here' record' acts')
    (legal : ∀ occurrence ∈ record, occurrence.Legal)
    (legal' : ∀ occurrence ∈ record', occurrence.Legal)
    (link : takenOn inp record' ≤ acceptedOn out record)
    (succeed : ∀ act ∈ acts, act.Succeeds out)
    (turns : List (Act User Own Local × Memory)) (each : turns.map Prod.fst = acts) :
    Reactor.ReadsOffered (offeredBy out turns) (sentBy out turns) inp acts' := by
  subst each
  intro before after sock buffer size events read split same memory' consumed
  obtain ⟨⟨rest, whole⟩, length⟩ := writes.sent legal succeed
  rw [← reads.1, takenOn_filter, ← length] at link
  obtain ⟨inside, loaded⟩ :=
    load_readExactly reads.runs (reads.legal legal') link split same memory'
  have started : consumed ≤ (sentBy out turns).length :=
    (Nat.le_add_right consumed size).trans inside
  have enough : size ≤ ((sentBy out turns).drop consumed).length := by
    rw [List.length_drop]
    exact Nat.le_sub_of_add_le' inside
  rw [loaded, ← whole, List.drop_append_of_le_length started, List.take_append_of_le_length enough]

end

/-! ## Two tasks -/

namespace Reactor

variable {Key Outside : Type} [DecidableEq Key]
variable {surroundings : Surroundings User Own Local Key Outside} {here : User}

/-- The task has done this. -/
def TaskRun.Did (run : TaskRun surroundings (.user here)) (acts : List (Act User Own Local)) :
    Prop :=
  Cppio.Did False surroundings.program here run.record acts

theorem TaskRun.did (run : TaskRun surroundings (.user here)) : ∃ acts, run.Did acts := by
  have tracks := tracks_of_fresh run.reachable run.fresh run.ran
  by_cases done : run.last.Done run.task
  · obtain ⟨value, -, record⟩ := tracks.done (Code.parksOnce_code _) done
    exact exists_did (Or.inr ⟨_, record⟩)
  · exact exists_did ((tracks.unfinished (Code.parksOnce_code _) done).imp_right fun record =>
      ⟨_, record⟩)

/-- The kernel sends and receives no more than it is asked for. -/
def Legal (surroundings : Surroundings User Own Local Key Outside) : Prop :=
  ∀ sock start size outside,
    (surroundings.syscall (.send sock start size) outside).1.result ≤ size ∧
      (surroundings.syscall (.recv sock start size) outside).1.result ≤ size

theorem TaskRun.legal
    {start : Start User} (run : TaskRun surroundings start) (legal : Legal surroundings) :
    ∀ occurrence ∈ run.record, occurrence.Legal := by
  refine forall_mem_part (forall_mem_log (fun task effect s => ?_) trivial _ _)
  cases effect with
  | syscall call =>
      cases call with
      | send sock start size => exact (legal sock start size s.outside).1
      | recv sock start size => exact (legal sock start size s.outside).2
      | _ => trivial
  | _ => trivial

/-- One task writes on a descriptor, and another, perhaps in another reactor, reads from
the one at the other end, which gives out no more than was sent.  Amid whatever these and
all other tasks do, a call of `read_exactly` that succeeds has in its buffer the bytes that
the calls of `write` were given, each from the memory during the call, from where the reads
before it have ended; unless one of these calls of `write` has failed. -/
theorem written_is_read
    {User' Own' Local' Key' Outside' : Type} [DecidableEq Key']
    {surroundings' : Surroundings User' Own' Local' Key' Outside'} {here' : User'}
    (writer : TaskRun surroundings (.user here)) (reader : TaskRun surroundings' (.user here'))
    {out inp : SocketT} (legal : Legal surroundings) (legal' : Legal surroundings')
    (link : takenOn inp reader.record ≤ acceptedOn out writer.record) :
    (∃ acts, writer.Did acts) ∧ (∃ acts', reader.Did acts') ∧
      ∀ acts acts', writer.Did acts → reader.Did acts' → (∀ act ∈ acts, act.Succeeds out) →
        ∀ turns : List (Act User Own Local × Memory), turns.map Prod.fst = acts →
          ReadsOffered (offeredBy out turns) (sentBy out turns) inp acts' :=
  ⟨writer.did, reader.did, fun _ _ did did' =>
    Did.reads did did' (writer.legal legal) (reader.legal legal') link⟩

/-- A program that sends two bytes twice from one buffer and receives them. -/
inductive Talk
  | write
  | writeAgain
  | read
  | readAgain
  | finish

/-- The kernel takes and gives what it is asked for. -/
def talking : Surroundings Talk Unit Empty Nat Unit where
  program
    | .write => .await (.tcpWrite ⟨3, 4⟩ 100 2) fun _ => .writeAgain
    | .writeAgain => .await (.tcpWrite ⟨3, 4⟩ 100 2) fun _ => .finish
    | .read => .await (.tcpReadExactly ⟨5, 6⟩ 200 2) fun _ => .readAgain
    | .readAgain => .await (.tcpReadExactly ⟨5, 6⟩ 200 2) fun _ => .finish
    | .finish => .ret ()
  syscall call _ :=
    match call with
    | .send _ _ size => (⟨size, .other⟩, [], ())
    | .recv _ _ size => (⟨size, .other⟩, [], ())
    | _ => (⟨-1, .other⟩, [], ())
  perform effect := nomatch effect
  epollCtl _ _ := none
  now _ := 0

/-- Both tasks have been spawned. -/
def spawnedTalk : Reactor Talk Unit Nat Unit :=
  ((initial ()).spawn (.user .write)).spawn (.user .read)

/-- Both run to their ends. -/
def talk : List (Label Talk Nat Unit) :=
  [.call, .test, .complete [], .proceed] ++ List.replicate 9 (.process 20)

theorem written_is_read_talk :
    ∃ (writer : TaskRun talking (.user .write)) (reader : TaskRun talking (.user .read)),
      acceptedOn 4 writer.record = 4 ∧ takenOn 5 reader.record = 4 ∧
      (∃ acts, writer.Did acts) ∧ (∃ acts', reader.Did acts') ∧
        ∀ acts acts', writer.Did acts → reader.Did acts' → (∀ act ∈ acts, act.Succeeds 4) →
          ∀ turns : List (Act Talk Unit Empty × Memory), turns.map Prod.fst = acts →
            ReadsOffered (offeredBy 4 turns) (sentBy 4 turns) 5 acts' := by
  have reachable : Machine.Reachable (step talking) (initial ()) spawnedTalk :=
    ⟨[.deed (.spawn (.user .write)), .deed (.spawn (.user .read))], rfl⟩
  have sent : acceptedOn 4 (part 0 (log talking spawnedTalk talk)) = 4 := by
    decide +kernel
  have taken : takenOn 5 (part 1 (log talking spawnedTalk talk)) = 4 := by
    decide +kernel
  obtain ⟨last, ran⟩ : ∃ last, Machine.run (step talking) spawnedTalk talk = some last :=
    ⟨_, rfl⟩
  let writer : TaskRun talking (.user .write) :=
    ⟨last, talk, 0, reachable, ⟨Nat.zero_lt_two, rfl, rfl⟩, ran⟩
  let reader : TaskRun talking (.user .read) :=
    ⟨last, talk, 1, reachable, ⟨Nat.one_lt_two, rfl, rfl⟩, ran⟩
  have legal : Legal talking := fun sock start size _ => ⟨le_refl _, le_refl _⟩
  have link : takenOn 5 reader.record ≤ acceptedOn 4 writer.record := by
    rw [TaskRun.record, TaskRun.record, sent, taken]
  exact ⟨writer, reader, sent, taken, written_is_read writer reader legal legal link⟩

end Reactor

end Cppio
