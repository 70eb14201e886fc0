import Cppio.Network.AddressPrinting
import Cppio.Network.Endpoint

/-!
# Endpoints survive their text

Whatever endpoint is printed, parsing the text gives it back.  With a port the
last colon is the one before it, and brackets around what stands before tell an
`ip::v6`.  Without a port an `ip::v6` ends in a bracket, and an `ip::v4` has no
colon, so that it cannot be taken for an `ip::v6`.
-/

namespace Cppio

open Http (Bytes isDigit)
open Ip

/-! ## The first and the last byte -/

namespace Ip

theorem head?_ne_of_inside
    {text : Bytes}
    (inside : ∀ ch ∈ text, Inside ch) :
    text.head? ≠ some 91 := fun bracket =>
  (inside 91 (List.mem_of_head? bracket)).2.1 rfl

theorem getLast?_ne_of_inside
    {text : Bytes}
    (inside : ∀ ch ∈ text, Inside ch) :
    text.getLast? ≠ some 93 := fun bracket =>
  (inside 93 (List.mem_of_getLast? bracket)).2.2 rfl

namespace V6

/-- A text without brackets is given to `inet_pton` as it is. -/
theorem parse_of_inside
    {pton : InetPton} {text : Bytes}
    (inside : ∀ ch ∈ text, Inside ch)
    (long : 2 ≤ text.length) :
    parse pton text =
      match pton.v6 text with
      | some bytes => .ok (ofNetwork bytes)
      | none => .error .badFormat := by
  rw [parse, if_neg (by omega)]
  dsimp only
  have stored :
      (if text.head? = some 91 ∧ text.getLast? = some 93 then
        pton.v6 (cString ((text.drop 1).take (text.length - 2))) else none) = none :=
    if_neg fun both => head?_ne_of_inside inside both.1
  cases answer : pton.v6 text with
  | none => simp only [stored, Option.none_or, cString_of_inside inside, answer]
  | some bytes => simp only [stored, Option.none_or, cString_of_inside inside, answer]

theorem pton_print
    {pton : InetPton}
    (exact_ : pton.Exact)
    (ip : V6) :
    pton.v6 ip.print = some ((ip.words.map UInt16.toNat).flatMap networkOrder) :=
  (exact_.v6 _ _).mpr ⟨_, ip.denotes_print, rfl⟩

/-- An exact `inet_pton` reads what is printed between the brackets. -/
theorem parse_print
    {pton : InetPton}
    (exact_ : pton.Exact)
    (ip : V6) :
    parse pton ip.print = .ok ip := by
  rw [parse_of_inside ip.inside_of_mem_print ip.denotes_print.symbols.2, pton_print exact_]
  exact congrArg Except.ok ip.ofNetwork_words

theorem head?_toString (ip : V6) : ip.toString.head? = some 91 := rfl

theorem getLast?_toString (ip : V6) : ip.toString.getLast? = some 93 :=
  List.getLast?_concat

/-- An exact `inet_pton` reads what `v6::to_string` wrote. -/
theorem parse_bracketed
    {pton : InetPton}
    (exact_ : pton.Exact)
    (ip : V6) :
    parse pton ip.toString = .ok ip := by
  have long : ¬ip.toString.length < 2 := by
    simp [toString]
  have addressCut : (ip.toString.drop 1).take (ip.toString.length - 2) = ip.print := by
    simp [toString]
  rw [parse, if_neg long]
  dsimp only
  rw [if_pos ⟨ip.head?_toString, ip.getLast?_toString⟩, addressCut,
    cString_of_inside ip.inside_of_mem_print, pton_print exact_]
  exact congrArg Except.ok ip.ofNetwork_words

/-- What `v4::to_string` wrote is not read as an `ip::v6`. -/
theorem parse_v4_toString
    {pton : InetPton}
    (exact_ : pton.Exact)
    (ip : V4) :
    parse pton ip.toString = .error .badFormat := by
  have rejected : pton.v6 ip.toString = none := by
    by_contra accepted
    obtain ⟨bytes, stored⟩ := Option.ne_none_iff_exists'.mp accepted
    obtain ⟨words, denotes, -⟩ := (exact_.v6 _ _).mp stored
    exact ip.dottedDecimal_toString.symbols.2.1 denotes.symbols.1
  by_cases long : 2 ≤ ip.toString.length
  · rw [parse_of_inside ip.inside_of_mem_toString long, rejected]
  · rw [parse, if_pos (by omega)]

end V6

end Ip

namespace Endpoint

/-! ## Without a port -/

/-- A text that ends in a bracket has no port. -/
theorem parse_of_getLast?
    (pton : InetPton) {address : Bytes}
    (bracket : address.getLast? = some 93) :
    parse pton address = .ok (parseAddress pton address) := by
  unfold parse
  split
  · rfl
  · rw [if_pos bracket]

theorem parseAddress_v4
    {pton : InetPton}
    (exact_ : pton.Exact)
    (ip : V4) :
    parseAddress pton ip.toString = .ok ⟨.v4 ip, 0⟩ := by
  rw [parseAddress, V6.parse_v4_toString exact_, V4.parse_printed exact_]

theorem parseAddress_v6
    {pton : InetPton}
    (exact_ : pton.Exact)
    (ip : V6) :
    parseAddress pton ip.toString = .ok ⟨.v6 ip, 0⟩ := by
  rw [parseAddress, V6.parse_bracketed exact_]

theorem parse_v4
    {pton : InetPton}
    (exact_ : pton.Exact)
    (ip : V4) :
    parse pton ip.toString = .ok (.ok ⟨.v4 ip, 0⟩) := by
  have noColon : Search.lastIndex 58 ip.toString = none :=
    Search.lastIndex_eq_none ip.dottedDecimal_toString.symbols.2.1
  rw [parse, noColon]
  exact congrArg Except.ok (parseAddress_v4 exact_ ip)

theorem parse_v6
    {pton : InetPton}
    (exact_ : pton.Exact)
    (ip : V6) :
    parse pton ip.toString = .ok (.ok ⟨.v6 ip, 0⟩) := by
  rw [parse_of_getLast? pton ip.getLast?_toString, parseAddress_v6 exact_]

/-! ## With a port -/

theorem inside_of_isDigit
    {ch : UInt8}
    (digit : isDigit ch = true) :
    Inside ch ∧ ch ≠ 58 := by
  refine ⟨⟨?_, ?_, ?_⟩, ?_⟩ <;> rintro rfl <;> exact absurd digit (by decide)

theorem parseHost_v4
    {pton : InetPton}
    (exact_ : pton.Exact)
    (ip : V4) :
    parseHost pton ip.toString = .ok (.v4 ip) := by
  have noBracket := getLast?_ne_of_inside ip.inside_of_mem_toString
  rw [parseHost, if_neg fun both => noBracket both.1,
    cString_of_inside ip.inside_of_mem_toString, V4.parse_printed exact_]
  rfl

theorem parseHost_v6
    {pton : InetPton}
    (exact_ : pton.Exact)
    (ip : V6) :
    parseHost pton ip.toString = .ok (.v6 ip) := by
  have overwritten : (ip.toString.dropLast ++ [0]).drop 1 = ip.print ++ [0] := by
    rw [V6.toString, List.dropLast_concat]
    rfl
  have stops : cString (ip.print ++ [0]) = ip.print := by
    rw [cString, List.takeWhile_append_of_pos fun ch present => ?_]
    · simp
    · simpa using (ip.inside_of_mem_print ch present).1
  rw [parseHost, if_pos ⟨ip.getLast?_toString, ip.head?_toString⟩, overwritten, stops,
    V6.parse_print exact_]
  rfl

/-- A host with a port after a colon is parsed as both. -/
theorem parse_host_port
    {pton : InetPton} {host : Bytes} {ip : IpAddress}
    (nonempty : host ≠ [])
    (parsed : parseHost pton host = .ok ip)
    (port : UInt16) :
    parse pton (host ++ ([58] ++ Cppio.toString port.toNat)) = .ok (.ok ⟨ip, port⟩) := by
  have digits : ∀ ch ∈ Cppio.toString port.toNat, Inside ch ∧ ch ≠ 58 := fun ch present =>
    inside_of_isDigit (isDigit_of_mem_toString present)
  have nonemptyPort : Cppio.toString port.toNat ≠ [] := numeral_ne_nil 10 port.toNat
  have separator : Search.lastIndex 58 (host ++ 58 :: Cppio.toString port.toNat) =
      some host.length :=
    Search.lastIndex_append (fun present => (digits 58 present).2 rfl) host
  have noBracket : (host ++ 58 :: Cppio.toString port.toNat).getLast? ≠ some 93 := by
    intro bracket
    rw [← List.singleton_append, ← List.append_assoc,
      List.getLast?_append_of_ne_nil _ nonemptyPort] at bracket
    exact getLast?_ne_of_inside (fun ch present => (digits ch present).1) bracket
  have bound := port.toNat_lt
  have isPort : stoul (cString ((host ++ 58 :: Cppio.toString port.toNat).drop
      (host.length + 1))) = .ok port.toNat := by
    rw [← List.drop_drop, List.drop_left, List.drop_succ_cons, List.drop_zero,
      cString_of_inside fun ch present => (digits ch present).1]
    exact stoul_toString (by omega)
  have samePort : UInt16.ofNat (port.toNat &&& 0xFFFF) = port := by
    rw [Nat.and_two_pow_sub_one_eq_mod port.toNat 16, Nat.mod_eq_of_lt bound]
    exact UInt16.ofNat_toNat
  rw [List.singleton_append, parse, separator]
  dsimp only
  rw [if_neg noBracket, isPort]
  dsimp only
  rw [if_neg (by omega), List.take_left, if_neg nonempty, parsed]
  dsimp only
  rw [samePort]

/-- Parsing the text of an endpoint gives it back. -/
theorem parse_toString
    {pton : InetPton}
    (exact_ : pton.Exact)
    (endpoint : Endpoint) :
    parse pton endpoint.toString = .ok (.ok endpoint) := by
  obtain ⟨addr, port⟩ := endpoint
  unfold toString
  cases addr with
  | v4 ip =>
      have nonempty : ip.toString ≠ [] :=
        List.ne_nil_of_mem ip.dottedDecimal_toString.symbols.1
      by_cases noPort : port = 0
      · rw [if_neg (not_not.mpr noPort), noPort]
        exact parse_v4 exact_ ip
      · rw [if_pos noPort]
        exact parse_host_port nonempty (parseHost_v4 exact_ ip) port
  | v6 ip =>
      have nonempty : ip.toString ≠ [] := by simp [V6.toString]
      by_cases noPort : port = 0
      · rw [if_neg (not_not.mpr noPort), noPort]
        exact parse_v6 exact_ ip
      · rw [if_pos noPort]
        exact parse_host_port nonempty (parseHost_v6 exact_ ip) port

/-- `[2001:db8::1]:8080`, read by the readers of the formats. -/
theorem parse_toString_documentation :
    parse reader
        (toString ⟨.v6 ⟨[0x2001, 0xdb8, 0, 0, 0, 0, 0, 1], rfl⟩, 8080⟩) =
      .ok (.ok ⟨.v6 ⟨[0x2001, 0xdb8, 0, 0, 0, 0, 0, 1], rfl⟩, 8080⟩) :=
  parse_toString exact_reader _

end Endpoint

end Cppio
