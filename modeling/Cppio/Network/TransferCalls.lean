import Cppio.Network.Transfers
import Cppio.Network.UdpWriting
import Cppio.Reactor.Recording

/-!
# What a finished transfer reports

The sizes of the operations, and the datagram of `udp_socket::write`, as the calls of
`one_step` record them for a task that was spawned with the operation.
-/

namespace Cppio

open Recording

variable {User Own Local Outside : Type} {program : User → UserInstr User Own Local}
variable {kernel : (effect : Effect User Local) → Outside → effect.Outcome Own × Outside}
variable {frames : Frames (Code User Own) (Result Own)} {r : Recording User Own Local Outside}

/-- The size with which a task finishes counts the bytes that its calls have moved, where
it is no `read_exactly` that was asked for bytes. -/
theorem transfer_called
    {start : Start User} (transfers : start.Transfers) (reports : start.ReportsMoved)
    (called : Called program kernel start.code frames r (some .done)) :
    ∃ value, frames.FinishedWith value ∧
      ∀ size, value = .size size → size = moved r.record := by
  obtain ⟨last, ⟨events, same, run⟩, done⟩ :=
    recorded_of_called kernel (Code.parksOnce_code start) called
  obtain ⟨value, rfl, finished⟩ := done rfl
  have recorded : moved r.record = moved events := by
    rw [← same]
    exact foldl_filter_recorded (fun _ => rfl) events 0
  refine ⟨value, finished, ?_⟩
  rintro size rfl
  rw [recorded]
  exact moved_of_executes transfers reports run

/-- Where no acceptance is answered with zero, a task that writes a datagram has handed
over at most one between two calls; when it has finished, it has handed over one on
success and none on an error, and has closed what it opened. -/
theorem writeTo_called
    (memory : Memory) {script : SendScript} {sock : BaseSocket} {endpoint buffer size : Nat}
    {result : ScheduleType}
    (called : Called program kernel (Code.writeTo sock endpoint buffer size) frames r
      (some result))
    (allowed : Along (SendTally.advance memory) (fun tally => script.Allows tally.rounds)
      SendTally.empty r.record)
    (nonzero : ∀ index, script.Accepts index → (script.rounds index).1.result ≠ 0) :
    (sendTally memory r.record).handed.length ≤ 1 ∧
      (result = .done → ∃ value, frames.FinishedWith value ∧
        (∀ count, value = .size count →
          (sendTally memory r.record).handed = [⟨memory.load buffer size, endpoint⟩]) ∧
        (∀ code, value = .error code → (sendTally memory r.record).handed = []) ∧
        (sendTally memory r.record).closed = (sendTally memory r.record).opened) := by
  obtain ⟨last, ⟨events, same, run⟩, done⟩ :=
    recorded_of_called kernel (Code.parksOnce_code (.udpWrite sock endpoint buffer size)) called
  have recorded : sendTally memory r.record = sendTally memory events := by
    rw [← same]
    exact foldl_filter_recorded (fun _ => rfl) events SendTally.empty
  rw [← same] at allowed
  have sends : SendsOn program memory script (Code.writeTo sock endpoint buffer size) .empty
      events last :=
    ⟨run, along_filter_recorded (fun _ => rfl) (fun _ => trivial) allowed⟩
  have once : SendsAtMostOne program memory script sock endpoint buffer size :=
    sendsAtMostOne_of_nonzero nonzero
  rw [recorded]
  refine ⟨once.atMostOne events last sends, fun isDone => ?_⟩
  obtain ⟨value, rfl, finished⟩ := done isDone
  refine ⟨value, finished, ?_, ?_, (once.closes events value sends).1⟩
  · rintro count rfl
    exact once.succeeds events count sends
  · rintro code rfl
    exact once.fails events code sends

end Cppio
