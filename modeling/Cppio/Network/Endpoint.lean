import Cppio.Network.Ip

/-!
# Endpoints

An address with a port: parsing, printing, and the exchange with the kernel
through `sockaddr_storage`.  `parse` is given a view of a text that ends in the
byte 0, where `stoul` stops at the latest.
-/

namespace Cppio

open Http (Bytes)

/-- `std::variant<ip::v4, ip::v6>`. -/
inductive IpAddress
  | v4 (ip : Ip.V4)
  | v6 (ip : Ip.V6)
  deriving DecidableEq

/-- `endpoint`. -/
structure Endpoint where
  addr : IpAddress
  port : UInt16
  deriving DecidableEq

/-! ## `sockaddr_storage` -/

/-- `AF_INET`. -/
def afInet : Nat := 2

/-- `AF_INET6`. -/
def afInet6 : Nat := 10

/-- `sockaddr_storage`, seen as a `sockaddr_in` and as a `sockaddr_in6`; the port
is at one place in both, the addresses do not overlap. -/
structure SockaddrStorage where
  family : Nat
  /-- `sin_port` and `sin6_port`. -/
  port : Bytes
  sinAddr : Bytes
  sin6Addr : Bytes
  sin6ScopeId : Nat
  deriving DecidableEq

/-- `v4::fill`. -/
def Ip.V4.fill (ip : Ip.V4) (storage : SockaddrStorage) : SockaddrStorage :=
  { storage with
    family := afInet
    sinAddr := Ip.networkOrder (ip.address.toNat / 65536) ++
      Ip.networkOrder (ip.address.toNat % 65536) }

/-- `v6::fill`. -/
def Ip.V6.fill (ip : Ip.V6) (storage : SockaddrStorage) : SockaddrStorage :=
  { storage with
    family := afInet6
    sin6Addr := (ip.words.map UInt16.toNat).flatMap Ip.networkOrder }

namespace Endpoint

/-- `endpoint::fill`. -/
def fill (endpoint : Endpoint) (storage : SockaddrStorage) : SockaddrStorage :=
  match endpoint.addr with
  | .v4 ip =>
      { ip.fill storage with
        port := Ip.networkOrder endpoint.port.toNat }
  | .v6 ip =>
      { ip.fill storage with
        port := Ip.networkOrder endpoint.port.toNat
        sin6ScopeId := 0 }

/-- `endpoint::endpoint(const sockaddr_storage&)`. -/
def ofStorage (storage : SockaddrStorage) : Endpoint where
  addr :=
    if storage.family = afInet then .v4 (.ofNetwork storage.sinAddr)
    else .v6 (.ofNetwork storage.sin6Addr)
  port := UInt16.ofNat (Numeral.read 256 (storage.port.map UInt8.toNat))

/-! ## Texts -/

open Ip (AddressError InetPton V4 V6)

/-- What ends the program in `endpoint::parse`. -/
inductive Fault
  /-- `ip_addr[ip_addr.size() - 1]` of an empty text. -/
  | undefined
  /-- An exception of `stoul` in a `noexcept` function. -/
  | terminate
  deriving DecidableEq

/-- `endpoint::parse` from where it takes the whole text for an address. -/
def parseAddress (pton : InetPton) (address : Bytes) : Except AddressError Endpoint :=
  match V6.parse pton address with
  | .ok ipv6 => .ok ⟨.v6 ipv6, 0⟩
  | .error _ =>
      match V4.parse pton address with
      | .ok ipv4 => .ok ⟨.v4 ipv4, 0⟩
      | .error _ => .error .badFormat

/-- The address before the last colon.  A closing bracket is overwritten by the
byte 0 before the text is parsed. -/
def parseHost (pton : InetPton) (ipAddr : Bytes) : Except AddressError IpAddress :=
  if ipAddr.getLast? = some 93 ∧ ipAddr.head? = some 91 then
    (V6.parse pton (cString ((ipAddr.dropLast ++ [0]).drop 1))).map .v6
  else (V4.parse pton (cString ipAddr)).map .v4

/-- `endpoint::parse`. -/
def parse (pton : InetPton) (address : Bytes) : Except Fault (Except AddressError Endpoint) :=
  match Search.lastIndex 58 address with
  | none => .ok (parseAddress pton address)
  | some portSeparator =>
      if address.getLast? = some 93 then .ok (parseAddress pton address)
      else
        match stoul (cString (address.drop (portSeparator + 1))) with
        | .error _ => .error .terminate
        | .ok port =>
            if 65535 < port then .ok (parseAddress pton address)
            else
              let ipAddr := address.take portSeparator
              if ipAddr = [] then .error .undefined
              else
                match parseHost pton ipAddr with
                | .ok ip => .ok (.ok ⟨ip, UInt16.ofNat (port &&& 0xFFFF)⟩)
                | .error _ => .ok (parseAddress pton address)

/-- `endpoint::to_string`. -/
def toString (endpoint : Endpoint) : Bytes :=
  let result :=
    match endpoint.addr with
    | .v4 ip => ip.toString
    | .v6 ip => ip.toString
  if endpoint.port ≠ 0 then result ++ ([58] ++ Cppio.toString endpoint.port.toNat) else result

end Endpoint

end Cppio
