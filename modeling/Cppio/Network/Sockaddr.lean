import Cppio.Library.ByteOrder
import Cppio.Network.BaseSocket
import Cppio.Network.UdpReading

/-!
# Socket addresses in memory

`sockaddr_storage` as the bytes that the code and the kernel share: which bytes
`fill` writes and which bytes the three decoders read, on a host of either byte
order.  `SockaddrStorage` is a view of these bytes, and the functions of the
code work on it as `Endpoint.fill` and `Endpoint.ofStorage` say.
-/

namespace Cppio

open Http (Bytes)

namespace Sockaddr

/-! ## Layout -/

/-- `ss_family`, `sin_family` and `sin6_family`. -/
def familyAt : Nat := 0

/-- `sin_port` and `sin6_port`. -/
def portAt : Nat := 2

/-- `sin_addr`. -/
def sinAddrAt : Nat := 4

/-- `sin6_flowinfo`. -/
def sin6FlowinfoAt : Nat := 4

/-- `sin6_addr`. -/
def sin6AddrAt : Nat := 8

/-- `sin6_scope_id`. -/
def sin6ScopeIdAt : Nat := 24

/-- A word of the storage. -/
def word (host : ByteOrder) (storage : Memory) (width place : Nat) : Nat :=
  host.decode (storage.load place width)

/-- The storage with a word of it assigned. -/
def assign (host : ByteOrder) (storage : Memory) (width place value : Nat) : Memory :=
  storage.store place (host.encode width value)

/-- `ss_family`. -/
def family (host : ByteOrder) (storage : Memory) : Nat :=
  word host storage 2 familyAt

/-- `sin6_flowinfo`, which is kept in network order. -/
def sin6Flowinfo (storage : Memory) : Bytes :=
  storage.load sin6FlowinfoAt 4

/-- `sin6_scope_id`. -/
def sin6ScopeId (host : ByteOrder) (storage : Memory) : Nat :=
  word host storage 4 sin6ScopeIdAt

/-- The fields of the storage. -/
def view (host : ByteOrder) (storage : Memory) : SockaddrStorage where
  family := family host storage
  port := storage.load portAt 2
  sinAddr := storage.load sinAddrAt 4
  sin6Addr := storage.load sin6AddrAt 16
  sin6ScopeId := sin6ScopeId host storage

end Sockaddr

open Sockaddr

/-! ## Writing -/

/-- `v4::fill`. -/
def Ip.V4.fillSockaddr (host : ByteOrder) (ip : Ip.V4) (storage : Memory) : Memory :=
  let storage := assign host storage 2 familyAt afInet
  assign host storage 4 sinAddrAt (host.hton 4 ip.address.toNat)

/-- `v6::fill`. -/
def Ip.V6.fillSockaddr (host : ByteOrder) (ip : Ip.V6) (storage : Memory) : Memory :=
  let storage := assign host storage 2 familyAt afInet6
  (List.range 8).foldl
    (fun storage i =>
      assign host storage 2 (sin6AddrAt + i * 2) (host.hton 2 (ip.words.getD i 0).toNat))
    storage

/-- `endpoint::fill`. -/
def Endpoint.fillSockaddr (host : ByteOrder) (endpoint : Endpoint) (storage : Memory) : Memory :=
  match endpoint.addr with
  | .v4 ip =>
      assign host (ip.fillSockaddr host storage) 2 portAt (host.hton 2 endpoint.port.toNat)
  | .v6 ip =>
      let storage :=
        assign host (ip.fillSockaddr host storage) 2 portAt (host.hton 2 endpoint.port.toNat)
      assign host storage 4 sin6ScopeIdAt 0

/-! ## Reading -/

/-- `v4{ ntohl(addr->sin_addr.s_addr) }`. -/
def Ip.V4.ofSockaddr (host : ByteOrder) (storage : Memory) : Ip.V4 where
  address := UInt32.ofNat (host.ntoh 4 (word host storage 4 sinAddrAt))

/-- `v6::v6(const uint8_t address[16])` of `sin6_addr`. -/
def Ip.V6.ofSockaddr (host : ByteOrder) (storage : Memory) : Ip.V6 where
  words := (List.range 8).map fun i =>
    UInt16.ofNat (host.ntoh 2 (word host storage 2 (sin6AddrAt + i * 2)))
  eight := by rw [List.length_map, List.length_range]

/-- `ntohs(addr->sin_port)` and `ntohs(addr->sin6_port)`. -/
def Sockaddr.port (host : ByteOrder) (storage : Memory) : UInt16 :=
  UInt16.ofNat (host.ntoh 2 (word host storage 2 portAt))

/-- `endpoint::endpoint(const sockaddr_storage&)`. -/
def Endpoint.ofSockaddr (host : ByteOrder) (storage : Memory) : Endpoint :=
  if family host storage = afInet then ⟨.v4 (.ofSockaddr host storage), Sockaddr.port host storage⟩
  else ⟨.v6 (.ofSockaddr host storage), Sockaddr.port host storage⟩

/-- What `getsockname` or `getpeername` returns, with what it leaves in `result`. -/
structure SocketName where
  returned : Int
  storage : Memory

namespace BaseSocket

/-- How `local_endpoint` and `internal_remote_endpoint` read the name. -/
def namedEndpoint
    (host : ByteOrder) (name : SocketT → SocketName) (sock : BaseSocket) :
    Except NetworkErrorCode Endpoint :=
  let result := (name sock.socket).storage
  if (name sock.socket).returned ≠ 0 then .error .closed
  else if family host result = afInet6 then
    .ok ⟨.v6 (.ofSockaddr host result), Sockaddr.port host result⟩
  else .ok ⟨.v4 (.ofSockaddr host result), Sockaddr.port host result⟩

/-- `base_socket::local_endpoint`. -/
def localEndpoint (host : ByteOrder) (getsockname : SocketT → SocketName) :=
  namedEndpoint host getsockname

/-- `base_socket::internal_remote_endpoint`. -/
def internalRemoteEndpoint (host : ByteOrder) (getpeername : SocketT → SocketName) :=
  namedEndpoint host getpeername

end BaseSocket

/-! ## The fields after an assignment -/

namespace Sockaddr

variable (host : ByteOrder) (storage : Memory)

/-- An assigned word is read back. -/
theorem word_assign
    {width value : Nat} (place : Nat)
    (small : value < 256 ^ width) :
    word host (assign host storage width place value) width place = value := by
  rw [word, assign, Memory.load_store _ _ (ByteOrder.length_encode host width value),
    ByteOrder.decode_encode host small]

/-- A converted word is stored in network order. -/
theorem load_assign_hton (width place value : Nat) :
    (assign host storage width place (host.hton width value)).load place width =
      ByteOrder.network width value := by
  rw [assign, Memory.load_store _ _ (ByteOrder.length_encode host width _),
    ByteOrder.encode_hton]

/-- The bytes beside an assigned word stay. -/
theorem load_assign
    {width place other length : Nat} (value : Nat)
    (disjoint : other + length ≤ place ∨ place + width ≤ other) :
    (assign host storage width place value).load other length = storage.load other length := by
  apply Memory.load_store_of_disjoint
  rwa [ByteOrder.length_encode]

theorem view_assign_family {value : Nat} (small : value < 256 ^ 2) :
    view host (assign host storage 2 familyAt value) =
      { view host storage with family := value } := by
  have beside : ∀ {place width}, 2 ≤ place →
      (assign host storage 2 familyAt value).load place width = storage.load place width :=
    fun behind => load_assign host storage value (Or.inr behind)
  rw [view, family, word_assign host storage familyAt small, sin6ScopeId, word,
    beside (by decide), beside (by decide), beside (by decide), beside (by decide)]
  rfl

theorem view_assign_port (value : Nat) :
    view host (assign host storage 2 portAt (host.hton 2 value)) =
      { view host storage with port := ByteOrder.network 2 value } := by
  have beside : ∀ {place width}, place + width ≤ 2 ∨ 4 ≤ place →
      (assign host storage 2 portAt (host.hton 2 value)).load place width =
        storage.load place width :=
    fun disjoint => load_assign host storage _ disjoint
  rw [view, load_assign_hton, family, word, sin6ScopeId, word, beside (by decide),
    beside (by decide), beside (by decide), beside (by decide)]
  rfl

theorem view_assign_sinAddr (value : Nat) :
    view host (assign host storage 4 sinAddrAt (host.hton 4 value)) =
      { view host storage with sinAddr := ByteOrder.network 4 value } := by
  have beside : ∀ {place width}, place + width ≤ 4 ∨ 8 ≤ place →
      (assign host storage 4 sinAddrAt (host.hton 4 value)).load place width =
        storage.load place width :=
    fun disjoint => load_assign host storage _ disjoint
  rw [view, load_assign_hton, family, word, sin6ScopeId, word, beside (by decide),
    beside (by decide), beside (by decide), beside (by decide)]
  rfl

theorem view_store_sin6Addr {bytes : Bytes} (length : bytes.length = 16) :
    view host (storage.store sin6AddrAt bytes) =
      { view host storage with sin6Addr := bytes } := by
  have beside : ∀ {place width}, place + width ≤ 8 ∨ 24 ≤ place →
      (storage.store sin6AddrAt bytes).load place width = storage.load place width :=
    fun disjoint => Memory.load_store_of_disjoint _ (by rwa [length])
  rw [view, Memory.load_store _ _ length, family, word, sin6ScopeId, word, beside (by decide),
    beside (by decide), beside (by decide), beside (by decide)]
  rfl

theorem view_assign_sin6ScopeId {value : Nat} (small : value < 256 ^ 4) :
    view host (assign host storage 4 sin6ScopeIdAt value) =
      { view host storage with sin6ScopeId := value } := by
  have beside : ∀ {place width}, place + width ≤ 24 →
      (assign host storage 4 sin6ScopeIdAt value).load place width = storage.load place width :=
    fun before => load_assign host storage value (Or.inl before)
  rw [view, sin6ScopeId, word_assign host storage sin6ScopeIdAt small, family, word,
    beside (by decide), beside (by decide), beside (by decide), beside (by decide)]
  rfl

end Sockaddr

/-! ## The bytes of addresses -/

theorem Ip.networkOrder_eq (number : Nat) :
    ByteOrder.network 2 number = Ip.networkOrder number := by
  have first : UInt8.ofNat (number / 256 % 256) = UInt8.ofNat (number / 256) :=
    UInt8.ofNat_mod_size
  rw [ByteOrder.network, ByteOrder.network, ByteOrder.network, first]
  rfl

theorem Ip.networkOrder_append (number : Nat) :
    ByteOrder.network 4 number =
      Ip.networkOrder (number / 65536) ++ Ip.networkOrder (number % 65536) := by
  have high : number / 256 / 256 = number / 65536 := Nat.div_div_eq_div_mul _ _ _
  have third : number % 65536 / 256 % 256 = number / 256 % 256 := by omega
  have fourth : number % 65536 % 256 = number % 256 := by omega
  rw [← Ip.networkOrder_eq, ← Ip.networkOrder_eq]
  simp [ByteOrder.network, high, third, fourth]

theorem Ip.V6.length_networkOrder (ip : Ip.V6) :
    ((ip.words.map UInt16.toNat).flatMap Ip.networkOrder).length = 16 := by
  have pairs : ∀ word, (Ip.networkOrder word).length = 2 := fun word => rfl
  rw [List.flatMap_map, List.length_flatMap]
  simp [pairs, ip.eight]

/-- The loop of `v6::fill` stores the words side by side. -/
theorem Ip.V6.fillSockaddr_eq (host : ByteOrder) (ip : Ip.V6) (storage : Memory) :
    ip.fillSockaddr host storage =
      (assign host storage 2 familyAt afInet6).store sin6AddrAt
        ((ip.words.map UInt16.toNat).flatMap Ip.networkOrder) := by
  have chunk : ∀ i, host.encode 2 (host.hton 2 (ip.words.getD i 0).toNat) =
      Ip.networkOrder (ip.words.getD i 0).toNat := fun i => by
    rw [ByteOrder.encode_hton, Ip.networkOrder_eq]
  have words : (List.range 8).map (fun i => ip.words.getD i 0) = ip.words := by
    apply List.ext_getElem
    · rw [List.length_map, List.length_range, ip.eight]
    · intro i inside insideWords
      rw [List.getElem_map, List.getElem_range, List.getD_eq_getElem _ _ insideWords]
  have chunks : (List.range 8).flatMap (fun i => Ip.networkOrder (ip.words.getD i 0).toNat) =
      (ip.words.map UInt16.toNat).flatMap Ip.networkOrder := by
    conv_rhs => rw [← words]
    rw [List.map_map, List.flatMap_map]
    rfl
  simp only [fillSockaddr, assign, chunk]
  rw [Memory.foldl_store _ _ 2 _ (fun i => rfl), chunks]

/-! ## The code on the fields -/

/-- `v4::fill` on the fields. -/
theorem Ip.V4.view_fillSockaddr (host : ByteOrder) (ip : Ip.V4) (storage : Memory) :
    view host (ip.fillSockaddr host storage) = ip.fill (view host storage) := by
  rw [fillSockaddr, view_assign_sinAddr, view_assign_family _ _ (by decide),
    Ip.networkOrder_append]
  rfl

/-- `v6::fill` on the fields. -/
theorem Ip.V6.view_fillSockaddr (host : ByteOrder) (ip : Ip.V6) (storage : Memory) :
    view host (ip.fillSockaddr host storage) = ip.fill (view host storage) := by
  rw [fillSockaddr_eq, view_store_sin6Addr _ _ ip.length_networkOrder,
    view_assign_family _ _ (by decide)]
  rfl

/-- `endpoint::fill` on the fields. -/
theorem Endpoint.view_fillSockaddr (host : ByteOrder) (endpoint : Endpoint) (storage : Memory) :
    view host (endpoint.fillSockaddr host storage) = endpoint.fill (view host storage) := by
  obtain ⟨addr, port⟩ := endpoint
  cases addr with
  | v4 ip =>
      rw [fillSockaddr, view_assign_port, ip.view_fillSockaddr, Ip.networkOrder_eq]
      rfl
  | v6 ip =>
      rw [fillSockaddr, view_assign_sin6ScopeId _ _ (by decide), view_assign_port,
        ip.view_fillSockaddr, Ip.networkOrder_eq]
      rfl

/-- `v4{ ntohl(addr->sin_addr.s_addr) }` on the fields. -/
theorem Ip.V4.ofSockaddr_eq (host : ByteOrder) (storage : Memory) :
    Ip.V4.ofSockaddr host storage = .ofNetwork (view host storage).sinAddr := by
  rw [ofSockaddr, word, ByteOrder.ntoh_decode host (Memory.length_load storage _ _)]
  rfl

/-- `v6::v6` on the fields. -/
theorem Ip.V6.ofSockaddr_eq (host : ByteOrder) (storage : Memory) :
    Ip.V6.ofSockaddr host storage = .ofNetwork (view host storage).sin6Addr := by
  have byte : ∀ {place}, place < 16 →
      (storage.load sin6AddrAt 16).getD place 0 = storage (sin6AddrAt + place) := by
    intro place inside
    rw [List.getD_eq_getElem _ _ (by rwa [Memory.length_load])]
    simp [Memory.load]
  apply (mk.injEq ..).mpr
  apply List.map_congr_left
  intro i inside
  have bound := List.mem_range.mp inside
  have loaded : storage.load (sin6AddrAt + i * 2) 2 =
      [storage (sin6AddrAt + 2 * i), storage (sin6AddrAt + (2 * i + 1))] := by
    rw [Nat.mul_comm i 2]
    rfl
  rw [word, ByteOrder.ntoh_decode host (Memory.length_load storage _ _), loaded]
  simp only [view]
  rw [byte (by omega), byte (by omega), Nat.mul_comm 256]
  simp [ByteOrder.number, Numeral.read]

theorem Sockaddr.port_eq (host : ByteOrder) (storage : Memory) :
    Sockaddr.port host storage =
      UInt16.ofNat (ByteOrder.number (view host storage).port) := by
  rw [Sockaddr.port, word, ByteOrder.ntoh_decode host (Memory.length_load storage _ _)]
  rfl

/-- The constructor of `endpoint` on the fields. -/
theorem Endpoint.ofSockaddr_eq (host : ByteOrder) (storage : Memory) :
    Endpoint.ofSockaddr host storage = .ofStorage (view host storage) := by
  have family_eq : (view host storage).family = family host storage := rfl
  rw [ofSockaddr, ofStorage, family_eq]
  split_ifs with isV4
  · rw [Ip.V4.ofSockaddr_eq, Sockaddr.port_eq]
    rfl
  · rw [Ip.V6.ofSockaddr_eq, Sockaddr.port_eq]
    rfl

/-! ## The codec -/

/-- What `fill` writes is read back, whatever the storage held. -/
theorem Endpoint.ofSockaddr_fillSockaddr
    (host : ByteOrder) (endpoint : Endpoint) (storage : Memory) :
    Endpoint.ofSockaddr host (endpoint.fillSockaddr host storage) = endpoint := by
  rw [ofSockaddr_eq, view_fillSockaddr, UdpReading.ofStorage_fill]

/-- The decoders of the names agree with the constructor on the two families. -/
theorem BaseSocket.namedEndpoint_eq
    (host : ByteOrder) {name : SocketT → SocketName} {sock : BaseSocket} {storage : Memory}
    (answered : name sock.socket = ⟨0, storage⟩)
    (known : family host storage = afInet ∨ family host storage = afInet6) :
    sock.namedEndpoint host name = .ok (.ofSockaddr host storage) := by
  have different : afInet6 ≠ afInet := by decide
  unfold namedEndpoint Endpoint.ofSockaddr
  rw [answered, if_neg (fun wrong => wrong rfl)]
  rcases known with isV4 | isV6
  · rw [isV4, if_neg different.symm, if_pos rfl]
  · rw [isV6, if_pos rfl, if_neg different]

/-- The codec of socket addresses is faithful: what `fill` writes is read back,
and the three decoders agree. -/
theorem Sockaddr.codec (host : ByteOrder) :
    (∀ (endpoint : Endpoint) (storage : Memory),
        Endpoint.ofSockaddr host (endpoint.fillSockaddr host storage) = endpoint) ∧
      ∀ (sock : BaseSocket) (getsockname getpeername : SocketT → SocketName) (storage : Memory),
        getsockname sock.socket = ⟨0, storage⟩ → getpeername sock.socket = ⟨0, storage⟩ →
          family host storage = afInet ∨ family host storage = afInet6 →
            sock.localEndpoint host getsockname = .ok (.ofSockaddr host storage) ∧
              sock.internalRemoteEndpoint host getpeername = .ok (.ofSockaddr host storage) := by
  refine ⟨Endpoint.ofSockaddr_fillSockaddr host, ?_⟩
  intro sock getsockname getpeername storage named peered known
  constructor
  · exact BaseSocket.namedEndpoint_eq host named known
  · exact BaseSocket.namedEndpoint_eq host peered known

/-- Port 12346 of 2001:db8::1 on a little-endian host. -/
theorem Sockaddr.codec_documentation :
    let storage : Memory := fun place =>
      [10, 0, 0x30, 0x3a, 0, 0, 0, 0, 0x20, 0x01, 0x0d, 0xb8, 0, 0, 0, 0, 0, 0, 0, 0, 0, 0, 0, 1,
        0, 0, 0, 0].getD place 0xff
    let endpoint : Endpoint := ⟨.v6 ⟨[0x2001, 0xdb8, 0, 0, 0, 0, 0, 1], rfl⟩, 12346⟩
    Endpoint.ofSockaddr .little (endpoint.fillSockaddr .little storage) = endpoint ∧
      BaseSocket.localEndpoint .little (fun _ => ⟨0, storage⟩) ⟨3, 4⟩ = .ok endpoint ∧
        BaseSocket.internalRemoteEndpoint .little (fun _ => ⟨0, storage⟩) ⟨3, 4⟩ =
          .ok endpoint := by
  intro storage endpoint
  obtain ⟨roundTrip, decoders⟩ := Sockaddr.codec .little
  have decoded : Endpoint.ofSockaddr .little storage = endpoint := by decide
  rw [← decoded]
  exact ⟨roundTrip _ storage, decoders ⟨3, 4⟩ _ _ storage rfl rfl (Or.inr (by decide))⟩

end Cppio
