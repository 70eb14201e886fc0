import Cppio.Network.Streams
import Cppio.Runners.Isolation

/-!
# From one task to another across runners

A task writes to a connection and another one reads from it, each among other tasks and in a
reactor with any number of runners.  What is read is what was written, however the runners
interleave.
-/

namespace Cppio
namespace Runners

variable {Worker User Own Local Key : Type} [DecidableEq Worker] [DecidableEq Key]

/-- A task on a run where tasks are woken from outside only. -/
structure TaskRun
    (Worker Key : Type) [DecidableEq Worker] [DecidableEq Key]
    (program : User → UserInstr User Own Local) (start : Start User) where
  last : State Worker User Own Key
  labels : List (Label Worker User Own Key)
  task : TaskId
  guarded : Machine.AllSteps (State.step program) WakesOutside State.initial labels
  ran : Machine.run (State.step program) State.initial labels = some last
  born : last.spawned[task]? = some start

namespace TaskRun

variable {program : User → UserInstr User Own Local} {start : Start User} {here : User}

/-- What the task does on the run. -/
def record (run : TaskRun Worker Key program start) : List (Occurs User Own Local) :=
  Reactor.part run.task (log program State.initial run.labels)

/-- The task has done this, up to where a runner is inside it. -/
def Did (run : TaskRun Worker Key program (.user here)) (acts : List (Act User Own Local)) :
    Prop :=
  Cppio.Did True program here run.record acts

theorem did [Inhabited Key] (run : TaskRun Worker Key program (.user here)) :
    ∃ acts, run.Did acts := by
  obtain ⟨coroutine, delivered, refines⟩ := refined_of_run run.guarded run.ran
  obtain ⟨events, last, same, begun⟩ := refines.begun run.born
  obtain ⟨acts, did⟩ := exists_did_of_advances begun
  rw [same] at did
  exact ⟨acts, did⟩

end TaskRun

section

variable {program : User → UserInstr User Own Local} {here : User}
variable {Worker' User' Own' Local' Key' : Type} [DecidableEq Worker'] [DecidableEq Key']
variable {program' : User' → UserInstr User' Own' Local'} {here' : User'}

/-- One task writes on a descriptor, and another, perhaps in another reactor, reads from the
one at the other end, which gives out no more than was sent.  With any number of runners in
each reactor, wherever one is inside these tasks, and amid whatever these and all other tasks
do, a call of `read_exactly` that succeeds has in its buffer the bytes that the calls of
`write` were given, each from the memory during the call, from where the reads before it have
ended; unless one of these calls of `write` has failed. -/
theorem written_is_received
    [Inhabited Key] [Inhabited Key']
    (writer : TaskRun Worker Key program (.user here))
    (reader : TaskRun Worker' Key' program' (.user here')) {out inp : SocketT}
    (legal : ∀ occurrence ∈ writer.record, occurrence.Legal)
    (legal' : ∀ occurrence ∈ reader.record, occurrence.Legal)
    (link : takenOn inp reader.record ≤ acceptedOn out writer.record) :
    (∃ acts, writer.Did acts) ∧ (∃ acts', reader.Did acts') ∧
      ∀ acts acts', writer.Did acts → reader.Did acts' → (∀ act ∈ acts, act.Succeeds out) →
        ∀ turns : List (Act User Own Local × Memory), turns.map Prod.fst = acts →
          Reactor.ReadsOffered (offeredBy out turns) (sentBy out turns) inp acts' :=
  ⟨writer.did, reader.did, fun _ _ did did' => Did.reads did did' legal legal' link⟩

end

section

open Reactor (Talk talking ReadsOffered)

/-- A system call of a runner moves two bytes. -/
def moveTwo (worker : Bool) : Label Bool Talk Unit Nat :=
  .work worker (.answer ⟨2, .other⟩)

/-- One runner writes for the first task while the other one reads for the second, up to
where both are inside their tasks: the first in its second call of `write`. -/
def twoTalk : List (Label Bool Talk Unit Nat) :=
  [.spawn (.user .write), .spawn (.user .read)] ++ startRound true 0 0 ++ startRound false 0 0 ++
    goes true 10 ++ goes false 10 ++ goes true 8 ++ moveTwo true :: goes false 19 ++
    moveTwo false :: goes true 8 ++ goes false 10 ++ goes true 8 ++ [moveTwo true]

theorem written_is_received_twoTalk :
    ∃ (writer : TaskRun Bool Nat talking.program (.user .write))
      (reader : TaskRun Bool Nat talking.program (.user .read)),
      (writer.last.pc true).inside = some writer.task ∧
      (reader.last.pc false).inside = some reader.task ∧
      acceptedOn 4 writer.record = 4 ∧ takenOn 5 reader.record = 2 ∧
      (∃ acts, writer.Did acts) ∧ (∃ acts', reader.Did acts') ∧
        ∀ acts acts', writer.Did acts → reader.Did acts' → (∀ act ∈ acts, act.Succeeds 4) →
          ∀ turns : List (Act Talk Unit Empty × Memory), turns.map Prod.fst = acts →
            ReadsOffered (offeredBy 4 turns) (sentBy 4 turns) 5 acts' := by
  have guarded : Machine.AllSteps (State.step talking.program) WakesOutside
      State.initial twoTalk := by
    decide +kernel
  obtain ⟨last, ran, born, born', inside, inside'⟩ : ∃ last,
      Machine.run (State.step talking.program) State.initial twoTalk = some last ∧
        last.spawned[0]? = some (.user .write) ∧ last.spawned[1]? = some (.user .read) ∧
        (last.pc true).inside = some 0 ∧ (last.pc false).inside = some 1 :=
    ⟨_, rfl, rfl, rfl, rfl, rfl⟩
  let writer : TaskRun Bool Nat talking.program (.user .write) :=
    ⟨last, twoTalk, 0, guarded, ran, born⟩
  let reader : TaskRun Bool Nat talking.program (.user .read) :=
    ⟨last, twoTalk, 1, guarded, ran, born'⟩
  have wrote : writer.record =
      [.performed .overlapped (), .performed (.syscall (.send 4 100 2)) ⟨2, .other⟩,
        .performed .overlapped (), .performed (.syscall (.send 4 100 2)) ⟨2, .other⟩] := by
    rfl
  have sent : acceptedOn 4 writer.record = 4 := by
    rw [wrote]
    rfl
  have legal : ∀ occurrence ∈ writer.record, occurrence.Legal := by
    simp [wrote, Occurrence.Legal]
  have received : reader.record = [.performed (.syscall (.recv 5 200 2)) ⟨2, .other⟩] := by
    rfl
  have taken : takenOn 5 reader.record = 2 := by
    rw [received]
    rfl
  have legal' : ∀ occurrence ∈ reader.record, occurrence.Legal := by
    simp [received, Occurrence.Legal]
  have link : takenOn 5 reader.record ≤ acceptedOn 4 writer.record := by
    rw [sent, taken]
    decide
  exact ⟨writer, reader, inside, inside', sent, taken,
    written_is_received writer reader legal legal' link⟩

end

end Runners
end Cppio
