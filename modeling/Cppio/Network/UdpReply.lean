import Cppio.Network.Sockaddr

/-!
# The address of a reply

What `udp_socket::write` passes to `sendto` for the endpoint that
`udp_socket::read` has taken from the address of a datagram.  An endpoint carries
neither the scope nor the flow information of a `sockaddr_in6`; `fill` clears the
one and leaves the other as the stack has it.
-/

namespace Cppio

open Http (Bytes)
open Sockaddr

/-- The fields of a `sockaddr_in6`, all of which the kernel reads. -/
structure SockaddrIn6 where
  sin6Family : Nat
  sin6Port : Bytes
  sin6Flowinfo : Bytes
  sin6Addr : Bytes
  sin6ScopeId : Nat
  deriving DecidableEq

/-- The `sockaddr_in6` in a storage. -/
def SockaddrIn6.ofStorage (host : ByteOrder) (storage : Memory) : SockaddrIn6 where
  sin6Family := family host storage
  sin6Port := storage.load portAt 2
  sin6Flowinfo := Sockaddr.sin6Flowinfo storage
  sin6Addr := storage.load sin6AddrAt 16
  sin6ScopeId := Sockaddr.sin6ScopeId host storage

namespace UdpSocket

/-- `remote_endpoint = endpoint{ from }` in `udp_socket::read`. -/
def readEndpoint (host : ByteOrder) (source : Memory) : Endpoint :=
  .ofSockaddr host source

/-- `to` in `udp_socket::write`; `stack` is what its memory held before. -/
def writeAddress (host : ByteOrder) (remoteEndpoint : Endpoint) (stack : Memory) : Memory :=
  remoteEndpoint.fillSockaddr host stack

/-- The address to which a datagram is answered. -/
def replyAddress (host : ByteOrder) (source stack : Memory) : Memory :=
  writeAddress host (readEndpoint host source) stack

/-- The kernel sees a reply to the source: its family, address, port and scope,
with the flow information that a reply to it is to have. -/
def ReachesSender
    (host : ByteOrder) (source : Memory) (flowinfo : Bytes) (stack : Memory) : Prop :=
  SockaddrIn6.ofStorage host (replyAddress host source stack) =
    { SockaddrIn6.ofStorage host source with sin6Flowinfo := flowinfo }

/-- A call of `read` that returns a datagram reports this endpoint. -/
theorem proceed_readEndpoint
    (host : ByteOrder) (reading : UdpReading) (buffer : Bytes) (source : Memory)
    {answer : Answer} {size : Nat}
    (returned : Received.ofAnswer answer = .returned size) :
    reading.proceed buffer (view host source) answer =
      reading.finish (.ok ⟨size, buffer.take size, readEndpoint host source⟩) := by
  rw [UdpReading.proceed, returned, readEndpoint, Endpoint.ofSockaddr_eq]

/-! ## Words back in network order -/

/-- A word that was read is written with the bytes that it was read from. -/
theorem networkOrder_ntoh (host : ByteOrder) (storage : Memory) (place : Nat) :
    Ip.networkOrder (UInt16.ofNat (host.ntoh 2 (word host storage 2 place))).toNat =
      storage.load place 2 := by
  have length := Memory.length_load storage place 2
  have bound := ByteOrder.number_lt (storage.load place 2)
  rw [length] at bound
  rw [word, ByteOrder.ntoh_decode host length, UInt16.toNat_ofNat_of_lt' bound,
    ← Ip.networkOrder_eq, ByteOrder.network_of_length length]

theorem networkOrder_words (host : ByteOrder) (storage : Memory) :
    ((Ip.V6.ofSockaddr host storage).words.map UInt16.toNat).flatMap Ip.networkOrder =
      storage.load sin6AddrAt 16 := by
  simp only [Ip.V6.ofSockaddr, List.map_map, List.flatMap_map, Function.comp_apply,
    networkOrder_ntoh]
  rfl

/-! ## The reply -/

/-- The reply has the family, the address and the port of the source, the scope 0
and the flow information of the stack. -/
theorem ofStorage_replyAddress
    (host : ByteOrder) {source : Memory} (stack : Memory)
    (ipv6 : family host source = afInet6) :
    SockaddrIn6.ofStorage host (replyAddress host source stack) =
      { SockaddrIn6.ofStorage host source with
        sin6Flowinfo := Sockaddr.sin6Flowinfo stack
        sin6ScopeId := 0 } := by
  have notV4 : afInet6 ≠ afInet := by decide
  have fields := Endpoint.view_fillSockaddr host (readEndpoint host source) stack
  have filled : (readEndpoint host source).fill (view host stack) =
      { view host stack with
        family := afInet6
        port := source.load portAt 2
        sin6Addr := source.load sin6AddrAt 16
        sin6ScopeId := 0 } := by
    rw [readEndpoint, Endpoint.ofSockaddr, ipv6, if_neg notV4]
    simp only [Endpoint.fill, Ip.V6.fill, networkOrder_words, Sockaddr.port, networkOrder_ntoh]
  rw [filled] at fields
  obtain ⟨family_eq, port_eq, flowinfo_eq, addr_eq, scope_eq⟩ :=
    (SockaddrStorage.mk.injEq ..).mp fields
  apply (SockaddrIn6.mk.injEq ..).mpr
  exact ⟨family_eq.trans ipv6.symm, port_eq, flowinfo_eq, addr_eq, scope_eq⟩

/-- A reply reaches the sender exactly if the datagram came without a scope and
the stack happens to hold the flow information; so no sender is reached whatever
the stack holds. -/
theorem reachesSender_iff
    (host : ByteOrder) {source : Memory}
    (ipv6 : family host source = afInet6) (flowinfo : Bytes) :
    (∀ stack, ReachesSender host source flowinfo stack ↔
      Sockaddr.sin6ScopeId host source = 0 ∧ Sockaddr.sin6Flowinfo stack = flowinfo) ∧
      ¬∀ stack, ReachesSender host source flowinfo stack := by
  have exactly : ∀ stack, ReachesSender host source flowinfo stack ↔
      Sockaddr.sin6ScopeId host source = 0 ∧ Sockaddr.sin6Flowinfo stack = flowinfo := by
    intro stack
    rw [ReachesSender, ofStorage_replyAddress host stack ipv6]
    constructor
    · intro equal
      obtain ⟨-, -, flowinfo_eq, -, scope_eq⟩ := (SockaddrIn6.mk.injEq ..).mp equal
      exact ⟨scope_eq.symm, flowinfo_eq⟩
    · rintro ⟨scope, sameFlow⟩
      exact (SockaddrIn6.mk.injEq ..).mpr ⟨rfl, rfl, sameFlow, rfl, scope.symm⟩
  refine ⟨exactly, fun always => ?_⟩
  -- Two stacks that differ in every byte cannot both hold the flow information.
  have zeros := ((exactly fun _ => 0).mp (always _)).2
  have ones := ((exactly fun _ => 1).mp (always _)).2
  have equal : Sockaddr.sin6Flowinfo (fun _ => 0) = Sockaddr.sin6Flowinfo (fun _ => 1) :=
    zeros.trans ones.symm
  exact absurd equal (by decide)

/-- The address of port 5353 of fe80::1 on interface 2, on a little-endian host. -/
def linkLocal : Memory := fun place =>
  [10, 0, 0x14, 0xe9, 0, 0, 0, 0, 0xfe, 0x80, 0, 0, 0, 0, 0, 0, 0, 0, 0, 0, 0, 0, 0, 1,
    2, 0, 0, 0].getD place 0

/-- A peer on the link gets no reply, not even from a cleared stack. -/
theorem not_reachesSender_linkLocal :
    ¬ReachesSender .little linkLocal [0, 0, 0, 0] fun _ => 0 := by
  unfold ReachesSender
  decide

/-- A sender without a scope is reached from a cleared stack. -/
theorem reachesSender_global :
    let source : Memory := fun place => if place = sin6ScopeIdAt then 0 else linkLocal place
    ReachesSender .little source [0, 0, 0, 0] fun _ => 0 := by
  intro source
  have ipv6 : family .little source = afInet6 := by decide
  exact ((reachesSender_iff .little ipv6 [0, 0, 0, 0]).1 _).mpr ⟨by decide, by decide⟩

end UdpSocket

end Cppio
