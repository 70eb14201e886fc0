import Cppio.Library.Machine
import Cppio.Network.AddressPrinting
import Cppio.Network.Endpoint
import Cppio.Reactor.Operations

/-!
# What `udp_socket::read` makes of the datagrams

A socket with the datagrams that the kernel has queued, and a program that calls
`read` again and again with a buffer in which every datagram fits.  The kernel
answers `recvfrom` with the first datagram, which it removes, or refuses with
some `errno`; an epoll event resumes a call that waits.  A datagram with bytes is
returned to the caller as it is; an empty one makes `recvfrom` return 0, which
the loop takes for a refusal.
-/

namespace Cppio

open Http (Bytes)

structure Datagram where
  payload : Bytes
  sender : Endpoint
  deriving DecidableEq

/-- What a successful `read` leaves to its caller: the size it returns, that
many bytes of the buffer, and `remote_endpoint`. -/
structure ReadReport where
  size : Nat
  bytes : Bytes
  remoteEndpoint : Endpoint
  deriving DecidableEq

/-- The report that a datagram is due. -/
def Datagram.report (datagram : Datagram) : ReadReport where
  size := datagram.payload.length
  bytes := datagram.payload
  remoteEndpoint := datagram.sender

/-- How the loop of `udp_socket::read` goes on after `recvfrom`. -/
inductive Received
  | closed
  | returned (size : Nat)
  | waits
  deriving DecidableEq

/-- The branches of the loop of `udp_socket::read`. -/
def Received.ofAnswer (answer : Answer) : Received :=
  if answer.failed then .closed
  else if answer.result > 0 then .returned answer.result.toNat
  else .waits

/-- The coroutine of `udp_socket::read` takes these branches. -/
theorem received_eq
    {User Own : Type} (operation : Operation SocketT) (again : Code User Own) (answer : Answer) :
    Code.received operation again answer =
      match Received.ofAnswer answer with
      | .closed => Code.fail .closed
      | .returned size => .ret (.size size)
      | .waits => .overlapped (.park operation.parkSteps (.success fun success =>
          if success then again else Code.fail .closed)) := by
  unfold Code.received Received.ofAnswer
  split_ifs <;> rfl

/-- Where a call of `read` is, with the caller's buffer. -/
inductive ReadPhase
  /-- The last call has returned. -/
  | idle
  /-- Before `recvfrom`. -/
  | receiving (buffer : Bytes)
  /-- At `co_await std::suspend_always{}`. -/
  | suspended (buffer : Bytes)
  deriving DecidableEq

structure UdpReading where
  /-- The datagrams in the kernel. -/
  queue : List Datagram
  /-- The datagrams that `recvfrom` removed. -/
  removed : List Datagram
  phase : ReadPhase
  results : List (Except NetworkErrorCode ReadReport)

/-- What happens next.  `from` in `udp_socket::read` starts as whatever the memory
holds; a `recvfrom` that succeeds leaves `errno` alone. -/
inductive UdpEvent
  | arrive (datagram : Datagram)
  | call (buffer : Bytes)
  /-- `recvfrom` returns the first datagram. -/
  | receive (memory : SockaddrStorage) (errno : Errno)
  /-- `recvfrom` returns -1. -/
  | refuse (memory : SockaddrStorage) (errno : Errno)
  /-- `epoll::run` resumes the task. -/
  | ready (success : Bool)
  deriving DecidableEq

namespace UdpReading

def initial : UdpReading where
  queue := []
  removed := []
  phase := .idle
  results := []

/-- `co_return`. -/
def finish (reading : UdpReading) (result : Except NetworkErrorCode ReadReport) : UdpReading :=
  { reading with phase := .idle, results := reading.results ++ [result] }

/-- The loop after `recvfrom`, with what the call left in the buffer and in `from`. -/
def proceed
    (reading : UdpReading)
    (buffer : Bytes)
    (source : SockaddrStorage)
    (answer : Answer) : UdpReading :=
  match Received.ofAnswer answer with
  | .closed => reading.finish (.error .closed)
  | .returned size => reading.finish (.ok ⟨size, buffer.take size, .ofStorage source⟩)
  | .waits => { reading with phase := .suspended buffer }

/-- One event, where no datagram is larger than `size` and no buffer smaller. -/
def step (size : Nat) (reading : UdpReading) : UdpEvent → Option UdpReading
  | .arrive datagram =>
      if datagram.payload.length ≤ size then
        some { reading with queue := reading.queue ++ [datagram] }
      else none
  | .call buffer =>
      if reading.phase = .idle ∧ size ≤ buffer.length then
        some { reading with phase := .receiving buffer }
      else none
  | .receive memory errno =>
      match reading.phase, reading.queue with
      | .receiving buffer, datagram :: queue =>
          let written := datagram.payload ++ buffer.drop datagram.payload.length
          some
            ({ reading with queue := queue, removed := reading.removed ++ [datagram] }.proceed
              written (datagram.sender.fill memory) ⟨datagram.payload.length, errno⟩)
      | _, _ => none
  | .refuse memory errno =>
      match reading.phase with
      | .receiving buffer => some (reading.proceed buffer memory ⟨-1, errno⟩)
      | _ => none
  | .ready success =>
      match reading.phase with
      | .suspended buffer =>
          if success then some { reading with phase := .receiving buffer }
          else some (reading.finish (.error .closed))
      | _ => none

/-- What the successful calls returned. -/
def reports (reading : UdpReading) : List ReadReport :=
  reading.results.filterMap Except.toOption

/-- Every datagram that was removed has been returned, in order. -/
def ReportsAll (reading : UdpReading) : Prop :=
  reading.reports = reading.removed.map Datagram.report

/-- The datagram that `recvfrom` is about to remove has bytes. -/
def RemovesBytes (reading : UdpReading) : UdpEvent → Prop
  | .receive _ _ => ∀ datagram queue, reading.queue = datagram :: queue → datagram.payload ≠ []
  | _ => True

/-! ## The sender -/

theorem ofNetwork_networkOrder (ip : Ip.V4) :
    Ip.V4.ofNetwork (Ip.networkOrder (ip.address.toNat / 65536) ++
      Ip.networkOrder (ip.address.toNat % 65536)) = ip := by
  obtain ⟨address⟩ := ip
  have bound := address.toNat_lt
  have read : Numeral.read 256 ((Ip.networkOrder (address.toNat / 65536) ++
      Ip.networkOrder (address.toNat % 65536)).map UInt8.toNat) = address.toNat := by
    simp [Ip.networkOrder, Numeral.read]
    omega
  rw [Ip.V4.ofNetwork, read]
  simp

theorem port_networkOrder (port : UInt16) :
    UInt16.ofNat (Numeral.read 256 ((Ip.networkOrder port.toNat).map UInt8.toNat)) = port := by
  have bound := port.toNat_lt
  have read : Numeral.read 256 ((Ip.networkOrder port.toNat).map UInt8.toNat) = port.toNat := by
    simp [Ip.networkOrder, Numeral.read]
    omega
  rw [read]
  simp

/-- What is filled into a `sockaddr_storage` is read from it. -/
theorem ofStorage_fill (endpoint : Endpoint) (memory : SockaddrStorage) :
    Endpoint.ofStorage (endpoint.fill memory) = endpoint := by
  obtain ⟨addr, port⟩ := endpoint
  cases addr with
  | v4 ip =>
      simp only [Endpoint.ofStorage, Endpoint.fill, Ip.V4.fill, if_true, port_networkOrder,
        ofNetwork_networkOrder]
  | v6 ip =>
      have notV4 : afInet6 ≠ afInet := by decide
      simp only [Endpoint.ofStorage, Endpoint.fill, Ip.V6.fill, if_neg notV4, port_networkOrder,
        Ip.V6.ofNetwork_words]

/-! ## One event -/

theorem reports_finish_ok (reading : UdpReading) (report : ReadReport) :
    (reading.finish (.ok report)).reports = reading.reports ++ [report] := by
  simp [finish, reports, Except.toOption]

theorem reports_finish_error (reading : UdpReading) (code : NetworkErrorCode) :
    (reading.finish (.error code)).reports = reading.reports := by
  simp [finish, reports, Except.toOption]

/-- A refusal is never reported as a success. -/
theorem proceed_refused
    (reading : UdpReading) (buffer : Bytes) (memory : SockaddrStorage) (errno : Errno) :
    (reading.proceed buffer memory ⟨-1, errno⟩).reports = reading.reports ∧
      (reading.proceed buffer memory ⟨-1, errno⟩).removed = reading.removed := by
  cases errno with
  | other => exact ⟨reading.reports_finish_error .closed, rfl⟩
  | inProgress => exact ⟨rfl, rfl⟩
  | wouldBlock => exact ⟨rfl, rfl⟩

/-- A datagram with bytes is returned. -/
theorem proceed_datagram
    (reading : UdpReading) (buffer : Bytes) (memory : SockaddrStorage) (errno : Errno)
    {datagram : Datagram}
    (bytes : datagram.payload ≠ []) :
    reading.proceed (datagram.payload ++ buffer.drop datagram.payload.length)
        (datagram.sender.fill memory) ⟨datagram.payload.length, errno⟩ =
      reading.finish (.ok datagram.report) := by
  have positive := List.length_pos_of_ne_nil bytes
  have returned : Received.ofAnswer ⟨datagram.payload.length, errno⟩ =
      .returned datagram.payload.length := by
    have notFailed : Answer.failed ⟨datagram.payload.length, errno⟩ = false := by
      simp [Answer.failed]
    rw [Received.ofAnswer, notFailed, if_neg Bool.false_ne_true, if_pos (by simpa using positive)]
    rfl
  rw [proceed, returned]
  dsimp only
  rw [List.take_left, ofStorage_fill]
  rfl

/-- What an event does to the reports and to the removed datagrams. -/
theorem step_cases
    {size : Nat} {reading next : UdpReading} {event : UdpEvent}
    (stepped : step size reading event = some next) :
    (next.reports = reading.reports ∧ next.removed = reading.removed ∧
        reading.RemovesBytes event) ∨
      ∃ datagram queue memory errno, event = .receive memory errno ∧
        reading.queue = datagram :: queue ∧ next.removed = reading.removed ++ [datagram] ∧
          next.reports = reading.reports ++
            if datagram.payload = [] then [] else [datagram.report] := by
  cases event with
  | arrive datagram =>
      simp only [step, Option.ite_none_right_eq_some, Option.some.injEq] at stepped
      obtain ⟨-, rfl⟩ := stepped
      exact Or.inl ⟨rfl, rfl, trivial⟩
  | call buffer =>
      simp only [step, Option.ite_none_right_eq_some, Option.some.injEq] at stepped
      obtain ⟨-, rfl⟩ := stepped
      exact Or.inl ⟨rfl, rfl, trivial⟩
  | receive memory errno =>
      simp only [step] at stepped
      split at stepped
      · rename_i buffer datagram queue receiving queued
        obtain rfl := Option.some.inj stepped
        refine Or.inr ⟨datagram, queue, memory, errno, rfl, queued, ?_⟩
        by_cases isEmpty : datagram.payload = []
        · rw [isEmpty, if_pos rfl, List.append_nil]
          exact ⟨rfl, rfl⟩
        · rw [proceed_datagram _ _ _ _ isEmpty, if_neg isEmpty]
          exact ⟨rfl, reports_finish_ok _ _⟩
      · cases stepped
  | refuse memory errno =>
      simp only [step] at stepped
      split at stepped
      · obtain rfl := Option.some.inj stepped
        obtain ⟨reports, removed⟩ := proceed_refused reading _ memory errno
        exact Or.inl ⟨reports, removed, trivial⟩
      · cases stepped
  | ready success =>
      simp only [step] at stepped
      split at stepped
      · split_ifs at stepped
        · obtain rfl := Option.some.inj stepped
          exact Or.inl ⟨rfl, rfl, trivial⟩
        · obtain rfl := Option.some.inj stepped
          exact Or.inl ⟨reports_finish_error _ _, rfl, trivial⟩
      · cases stepped

theorem reportsAll_of_step
    {size : Nat} {reading next : UdpReading} {event : UdpEvent}
    (all : reading.ReportsAll)
    (removesBytes : reading.RemovesBytes event)
    (stepped : step size reading event = some next) :
    next.ReportsAll := by
  unfold ReportsAll at all ⊢
  rcases step_cases stepped with
    ⟨reports, removed, -⟩ | ⟨datagram, queue, memory, errno, rfl, queued, removed, reports⟩
  · rw [reports, removed, all]
  · rw [reports, removed, all, if_neg (removesBytes datagram queue queued), List.map_append]
    rfl

theorem removesBytes_of_step
    {size : Nat} {reading next : UdpReading} {event : UdpEvent}
    (all : reading.ReportsAll)
    (stepped : step size reading event = some next)
    (allNext : next.ReportsAll) :
    reading.RemovesBytes event := by
  rcases step_cases stepped with
    ⟨-, -, removesBytes⟩ | ⟨datagram, queue, memory, errno, rfl, queued, removed, reports⟩
  · exact removesBytes
  · intro other rest queued' isEmpty
    obtain ⟨rfl, -⟩ := List.cons.inj (queued.symm.trans queued')
    unfold ReportsAll at all allNext
    rw [reports, removed, if_pos isEmpty, List.append_nil, all] at allNext
    have lengths := congrArg List.length allNext
    simp at lengths

/-- Every datagram that was removed has been returned, in every state of a run,
exactly when none that the run removes is empty. -/
theorem reportsAll_iff (size : Nat) (events : List UdpEvent) :
    Machine.AllStates (step size) ReportsAll initial events ↔
      Machine.AllSteps (step size) RemovesBytes initial events := by
  have sound : ∀ reading : UdpReading, reading.ReportsAll → reading.ReportsAll :=
    fun reading all => all
  have preserved : ∀ reading event next, reading.ReportsAll → reading.RemovesBytes event →
      step size reading event = some next → next.ReportsAll :=
    fun reading event next all removesBytes stepped => reportsAll_of_step all removesBytes stepped
  have complete : ∀ reading event next, reading.ReportsAll →
      step size reading event = some next → next.ReportsAll → reading.RemovesBytes event :=
    fun reading event next all stepped allNext => removesBytes_of_step all stepped allNext
  have initially : initial.ReportsAll := rfl
  exact Machine.allStates_iff_allSteps sound preserved complete initially events

/-- An empty datagram from port 53 is removed, and the call that removed it waits
for the next one. -/
theorem not_reportsAll_empty :
    ¬Machine.AllStates (step 4) ReportsAll initial
      [.arrive ⟨[], ⟨.v4 ⟨0x7f000001⟩, 53⟩⟩, .call [0, 0, 0, 0],
        .receive ⟨0, [], [], [], 0⟩ .other] := by
  intro all
  have reached := all _ [] _ (List.append_nil _).symm rfl
  cases reached

end UdpReading

end Cppio
