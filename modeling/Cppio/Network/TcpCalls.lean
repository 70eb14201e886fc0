import Cppio.Network.PeerClose
import Cppio.Network.TcpWriting
import Cppio.Reactor.Recording

/-!
# What calls of `one_step` transfer

Sending and receiving as the calls of `one_step` record them, for a task that was
spawned with an operation.
-/

namespace Cppio

open Recording

variable {User Own Local Outside : Type} {program : User → UserInstr User Own Local}
variable {kernel : (effect : Effect User Local) → Outside → effect.Outcome Own × Outside}
variable {sock : BaseSocket} {buffer size : Nat}
variable {frames : Frames (Code User Own) (Result Own)} {r : Recording User Own Local Outside}
variable {result : ScheduleType}

/-- Between two calls the kernel has accepted a first part of the buffer; a task that
has finished returns the size if this is the whole buffer, and `Closed` otherwise. -/
theorem write_called
    (memory : Memory)
    (called : Called program kernel (Code.write sock buffer size) frames r (some result))
    (legal : ∀ occurrence ∈ r.record, occurrence.Legal) :
    accepted memory r.record <+: memory.load buffer size ∧
      (result = .done → ∃ value, frames.FinishedWith value ∧
        (value = .size size ∧ accepted memory r.record = memory.load buffer size ∨
          value = .error .closed ∧ accepted memory r.record ≠ memory.load buffer size)) := by
  obtain ⟨last, ⟨events, same, run⟩, done⟩ :=
    recorded_of_called kernel (Code.parksOnce_code (.tcpWrite sock buffer size)) called
  rw [← same] at legal
  obtain ⟨-, sent, le, bytes, returns⟩ :=
    counted_of_executes memory run ((forall_mem_filter_recorded trivial).mp legal)
  have recorded : accepted memory r.record = memory.load buffer sent := by
    rw [← same, ← bytes]
    exact foldl_filter_recorded (fun _ => rfl) events []
  refine ⟨recorded ▸ prefix_load memory buffer le, fun isDone => ?_⟩
  obtain ⟨value, some, finished⟩ := done isDone
  obtain ⟨rfl, rfl⟩ | ⟨less, rfl⟩ := returns value some
  · exact ⟨_, finished, Or.inl ⟨rfl, recorded⟩⟩
  · refine ⟨_, finished, Or.inr ⟨rfl, fun whole => less.ne ?_⟩⟩
    simpa using congrArg List.length (recorded.symm.trans whole)

/-- Between two calls nothing outside the buffer is written; a task that has finished
returns success only with the next bytes of the stream in the buffer. -/
theorem readExactly_called
    (stream : Nat → UInt8) (memory : Memory) (consumed : Nat)
    (called : Called program kernel (Code.readExactly sock buffer size) frames r (some result))
    (legal : ∀ occurrence ∈ r.record, occurrence.Legal) :
    let receipt := receiveAll stream memory consumed r.record
    (∀ address, address < buffer ∨ buffer + size ≤ address →
        receipt.memory address = memory address) ∧
      (result = .done → ∃ value, frames.FinishedWith value ∧
        (value = .size 0 ∧ receipt.memory.load buffer size = Memory.load stream consumed size ∧
            receipt.consumed = consumed + size ∨
          value = .error .closed)) := by
  intro receipt
  obtain ⟨last, ⟨events, same, run⟩, done⟩ :=
    recorded_of_called kernel (Code.parksOnce_code (.tcpReadExactly sock buffer size)) called
  rw [← same] at legal
  obtain ⟨-, total, le, failed, received, returns⟩ :=
    received_of_executes stream memory consumed run ((forall_mem_filter_recorded trivial).mp legal)
  have recorded : receipt = receiptOf stream memory consumed buffer total failed := by
    rw [← received]
    change receiveAll stream memory consumed r.record = _
    rw [← same]
    exact foldl_filter_recorded (fun _ => rfl) events _
  rw [recorded]
  refine ⟨fun address => receiptOf_memory_outside stream memory consumed failed le,
    fun isDone => ?_⟩
  obtain ⟨value, some, finished⟩ := done isDone
  refine ⟨value, finished, ?_⟩
  obtain ⟨rfl, rfl, -⟩ | ⟨closed, -⟩ := returns value some
  · exact Or.inl ⟨rfl, load_receiptOf stream memory consumed _ failed, rfl⟩
  · exact Or.inr closed

/-- A task that finishes on a script does so by an execution of its code; so it never
finishes where none completes. -/
theorem completes_of_called
    {script : Script} {code : Code User Own}
    (parksOnce : code.ParksOnce)
    (called : Called program kernel code frames r (some .done))
    (scripted : Along Occurrence.countRecv (Occurrence.Scripted script) 0 r.record) :
    code.Completes program script := by
  obtain ⟨last, ⟨events, same, run⟩, done⟩ := recorded_of_called kernel parksOnce called
  obtain ⟨value, rfl, -⟩ := done rfl
  rw [← same] at scripted
  have follows := along_filter_recorded (fun _ => rfl) (fun _ => trivial) scripted
  exact ⟨events, value, run, follows⟩

end Cppio
