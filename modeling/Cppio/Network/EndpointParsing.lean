import Cppio.Network.AddressParsing
import Cppio.Network.EndpointView

/-!
# Which endpoints are parsed

What `endpoint::parse` makes of a NUL-terminated string.  It ends the program
where what follows the last colon is no number, or is one with nothing before
the colon.  Otherwise it returns, and an endpoint that it returns is the one
that the text denotes, unless `stoul` has read less than the whole port or the
address stands in two pairs of brackets.
-/

namespace Cppio

open Http (Bytes isDigit)
open Ip

/-! ## Texts of endpoints -/

/-- Digits that write a port. -/
structure IsPort (digits : Bytes) (port : UInt16) : Prop where
  nonempty : digits ≠ []
  areDigits : ∀ ch ∈ digits, isDigit ch = true
  value : digitsValue digits = port.toNat

/-- What stands before the colon of a port. -/
inductive IpAddress.IsHost : IpAddress → Bytes → Prop
  | v4 {ip : V4} {text : Bytes} (isText : ip.IsText text) : IsHost (.v4 ip) text
  | v6 {ip : V6} {text : Bytes} (isBracketed : ip.IsBracketed text) : IsHost (.v6 ip) text

/-- The text denotes the endpoint. -/
inductive Endpoint.IsText : Endpoint → Bytes → Prop
  | v4 {ip : V4} {text : Bytes} (isText : ip.IsText text) : IsText ⟨.v4 ip, 0⟩ text
  | v6 {ip : V6} {text : Bytes} (isText : ip.IsText text) : IsText ⟨.v6 ip, 0⟩ text
  | bracketed {ip : V6} {text : Bytes} (isBracketed : ip.IsBracketed text) :
      IsText ⟨.v6 ip, 0⟩ text
  | port {addr : IpAddress} {host digits : Bytes} {port : UInt16} (isHost : addr.IsHost host)
      (isPort : IsPort digits port) :
      IsText ⟨addr, port⟩ (host ++ 58 :: digits)

/-- A string of C: no byte 0 among its characters. -/
structure CharString where
  chars : Bytes
  noZero : 0 ∉ chars

/-- The address in two pairs of brackets. -/
def Ip.V6.IsBracketedTwice (ip : V6) (text : Bytes) : Prop :=
  ∃ inner, text = 91 :: (inner ++ [93]) ∧ ip.IsBracketed inner

namespace Endpoint

/-! ## Hosts -/

theorem map_eq_ok
    {α β : Type} {convert : α → β} {outcome : Except AddressError α} {converted : β} :
    outcome.map convert = .ok converted ↔
      ∃ result, outcome = .ok result ∧ convert result = converted := by
  cases outcome with
  | error error => simp [Except.map]
  | ok result => simp [Except.map]

/-- The closing bracket is overwritten and the opening one skipped. -/
theorem cString_overwritten
    {inner : Bytes}
    (noZero : 0 ∉ inner) :
    cString (((91 :: (inner ++ [93])).dropLast ++ [0]).drop 1) = inner := by
  have overwritten : ((91 :: (inner ++ [93])).dropLast ++ [0]).drop 1 = inner ++ [0] := by
    rw [← List.cons_append, List.dropLast_concat]
    rfl
  have nonzero : ∀ ch ∈ inner, decide (ch ≠ 0) = true := fun ch present => by
    simpa using ne_of_mem_of_not_mem present noZero
  rw [overwritten, cString, List.takeWhile_append_of_pos nonzero]
  exact List.append_nil inner

theorem parseHost_eq_ok_iff
    {pton : InetPton} {host : Bytes}
    (exact_ : pton.Exact)
    (noZero : 0 ∉ host)
    (addr : IpAddress) :
    parseHost pton host = .ok addr ↔
      addr.IsHost host ∨ ∃ ip, addr = .v6 ip ∧ ip.IsBracketedTwice host := by
  by_cases brackets : ∃ inner, host = 91 :: (inner ++ [93])
  · obtain ⟨inner, rfl⟩ := brackets
    have noZeroInside : 0 ∉ inner := by simpa using noZero
    have last : (91 :: (inner ++ [93])).getLast? = some 93 :=
      List.getLast?_concat (l := 91 :: inner)
    rw [parseHost, if_pos ⟨last, rfl⟩, cString_overwritten noZeroInside, map_eq_ok]
    constructor
    · rintro ⟨ip, parsed, rfl⟩
      rcases (V6.parse_eq_ok_iff exact_ noZeroInside ip).mp parsed with isText | isBracketed
      · exact Or.inl (.v6 ⟨inner, rfl, isText⟩)
      · exact Or.inr ⟨ip, rfl, inner, rfl, isBracketed⟩
    · rintro (isHost | ⟨ip, rfl, other, same, isBracketed⟩)
      · cases isHost with
        | v4 isText => exact absurd (isText.occurs 91 List.mem_cons_self) not_occurs_open
        | @v6 ip _ isBracketed =>
            obtain ⟨other, same, isText⟩ := isBracketed
            obtain rfl := List.append_cancel_right (List.cons.inj same).2
            exact ⟨ip, (V6.parse_eq_ok_iff exact_ noZeroInside ip).mpr (Or.inl isText), rfl⟩
      · obtain rfl := List.append_cancel_right (List.cons.inj same).2
        exact ⟨ip, (V6.parse_eq_ok_iff exact_ noZeroInside ip).mpr (Or.inr isBracketed), rfl⟩
  · have plain : ¬(host.getLast? = some 93 ∧ host.head? = some 91) := fun both =>
      brackets (V6.exists_inner ⟨both.2, both.1⟩)
    rw [parseHost, if_neg plain, cString_of_notMem noZero, map_eq_ok]
    constructor
    · rintro ⟨ip, parsed, rfl⟩
      exact Or.inl (.v4 ((V4.parse_eq_ok_iff exact_ noZero ip).mp parsed))
    · rintro (isHost | ⟨ip, -, inner, same, -⟩)
      · cases isHost with
        | @v4 ip _ isText => exact ⟨ip, (V4.parse_eq_ok_iff exact_ noZero ip).mpr isText, rfl⟩
        | v6 isBracketed =>
            obtain ⟨inner, same, -⟩ := isBracketed
            exact absurd ⟨inner, same⟩ brackets
      · exact absurd ⟨inner, same⟩ brackets

theorem parseAddress_of_isText
    {pton : InetPton} {text : Bytes}
    (exact_ : pton.Exact)
    (noZero : 0 ∉ text)
    {ip : V6}
    (isText : ip.IsText text) :
    parseAddress pton text = .ok ⟨.v6 ip, 0⟩ := by
  rw [parseAddress, (V6.parse_eq_ok_iff exact_ noZero ip).mpr (Or.inl isText)]

/-- Where the whole text is taken for an address, the endpoint is the one that it denotes. -/
theorem isText_of_parseAddress
    {pton : InetPton} {text : Bytes} {endpoint : Endpoint}
    (exact_ : pton.Exact)
    (noZero : 0 ∉ text)
    (parsed : parseAddress pton text = .ok endpoint) :
    endpoint.IsText text := by
  unfold parseAddress at parsed
  cases isV6 : V6.parse pton text with
  | ok ip =>
      rw [isV6] at parsed
      obtain rfl := Except.ok.inj parsed
      rcases (V6.parse_eq_ok_iff exact_ noZero ip).mp isV6 with isText | isBracketed
      · exact .v6 isText
      · exact .bracketed isBracketed
  | error error =>
      rw [isV6] at parsed
      cases isV4 : V4.parse pton text with
      | ok ip =>
          rw [isV4] at parsed
          obtain rfl := Except.ok.inj parsed
          exact .v4 ((V4.parse_eq_ok_iff exact_ noZero ip).mp isV4)
      | error error =>
          rw [isV4] at parsed
          cases parsed

/-! ## Strings -/

/-- In a NUL-terminated string the port is read to the end. -/
theorem parseView_ofString_of_colon
    (pton : InetPton) {host port : Bytes}
    (last : 58 ∉ port) :
    parseView pton (.ofString (host ++ 58 :: port)) =
      if port.getLast? = some 93 then .ok (parseAddress pton (host ++ 58 :: port))
      else parseAnswer pton (host ++ 58 :: port) host (stoul port) := by
  have ends : stoul (port ++ [0]) = stoul port :=
    stoul_append_of_zero fun ch first => (Option.some.inj first).symm
  rw [parseView_of_colon pton rfl last, ← ends]
  rfl

/-- A NUL-terminated string is parsed as `parse` says. -/
theorem parseView_ofString (pton : InetPton) (text : Bytes) :
    parseView pton (.ofString text) = parse pton text := by
  by_cases colon : 58 ∈ text
  · obtain ⟨host, port, rfl, last⟩ := Search.exists_last colon
    have data : (host ++ 58 :: port).drop (host.length + 1) = port := by
      rw [← List.drop_drop, List.drop_left]
      rfl
    rw [parseView_ofString_of_colon pton last, parse, Search.lastIndex_append last]
    dsimp only
    rw [data, stoul_cString, List.take_left]
    simp only [getLast?_append_colon]
    by_cases bracket : port.getLast? = some 93
    · rw [if_pos bracket, if_pos bracket]
    · rw [if_neg bracket, if_neg bracket]
      cases stoul port with
      | error error => rfl
      | ok number => rfl
  · rw [parseView_of_notMem pton colon, parse, Search.lastIndex_eq_none colon]
    rfl

/-! ## Crashes -/

/-- `parse` returns, and a text of an `ip::v6` without brackets is accepted. -/
structure ParsesSafely (pton : InetPton) (text : Bytes) : Prop where
  returns : ∃ outcome, parseView pton (.ofString text) = .ok outcome
  acceptsBare : ∀ ip : V6, ip.IsText text →
    parseView pton (.ofString text) = .ok (.ok ⟨.v6 ip, 0⟩)

/-- What follows the last colon of a text that does not end in a bracket starts with a number,
before which something stands if it may be a port. -/
def PortReadable (text : Bytes) : Prop :=
  ∀ host port, text = host ++ 58 :: port → 58 ∉ port → port.getLast? ≠ some 93 →
    ∃ number, ReadsAs port number ∧ (number ≤ 65535 → host ≠ [])

/-- What is accepted before a port is no part of the text of an `ip::v6`. -/
theorem not_isText_of_parseHost
    {pton : InetPton} {host port : Bytes} {addr : IpAddress}
    (exact_ : pton.Exact)
    (last : 58 ∉ port)
    (parsed : parseHost pton host = .ok addr)
    (ip : V6) :
    ¬ip.IsText (host ++ 58 :: port) := by
  intro isText
  have noZero : 0 ∉ host := fun present =>
    isText.notMem not_occurs_zero (List.mem_append_left _ present)
  have noBracket : 91 ∉ host := fun present =>
    isText.notMem not_occurs_open (List.mem_append_left _ present)
  rcases (parseHost_eq_ok_iff exact_ noZero addr).mp parsed with isHost | ⟨ip, -, inner, rfl, -⟩
  · cases isHost with
    | v4 isText' =>
        rcases AddressText.Alphabet.Denotes.colon_mem isText with before | after
        · exact isText'.symbols.2.1 before
        · exact last after
    | v6 isBracketed =>
        obtain ⟨inner, rfl, -⟩ := isBracketed
        exact noBracket List.mem_cons_self
  · exact noBracket List.mem_cons_self

theorem parseAnswer_returns_iff
    (pton : InetPton) (address host : Bytes) (answer : Except StoulError Nat) :
    (∃ outcome, parseAnswer pton address host answer = .ok outcome) ↔
      ∃ number, answer = .ok number ∧ (number ≤ 65535 → host ≠ []) := by
  cases answer with
  | error error => simp [parseAnswer]
  | ok number =>
      rw [parseAnswer]
      by_cases large : 65535 < number
      · rw [if_pos large]
        exact iff_of_true ⟨_, rfl⟩ ⟨number, rfl, fun small => absurd small (by omega)⟩
      · rw [if_neg large]
        by_cases noHost : host = []
        · rw [if_pos noHost]
          refine iff_of_false (by simp) ?_
          rintro ⟨other, same, nonempty⟩
          obtain rfl := Except.ok.inj same
          exact nonempty (by omega) noHost
        · rw [if_neg noHost]
          refine iff_of_true ?_ ⟨number, rfl, fun _ => noHost⟩
          cases parseHost pton host with
          | ok ip => exact ⟨_, rfl⟩
          | error error => exact ⟨_, rfl⟩

theorem PortReadable.returns
    {text : Bytes}
    (pton : InetPton)
    (readable : PortReadable text) :
    ∃ outcome, parseView pton (.ofString text) = .ok outcome := by
  by_cases colon : 58 ∈ text
  · obtain ⟨host, port, rfl, last⟩ := Search.exists_last colon
    rw [parseView_ofString_of_colon pton last]
    by_cases bracket : port.getLast? = some 93
    · rw [if_pos bracket]
      exact ⟨_, rfl⟩
    · rw [if_neg bracket, parseAnswer_returns_iff]
      obtain ⟨number, reads, nonempty⟩ := readable host port rfl last bracket
      exact ⟨number, stoul_eq_ok_iff.mpr reads, nonempty⟩
  · exact ⟨_, parseView_of_notMem pton colon⟩

theorem PortReadable.acceptsBare
    {pton : InetPton} {text : Bytes}
    (exact_ : pton.Exact)
    (readable : PortReadable text)
    {ip : V6}
    (isText : ip.IsText text) :
    parseView pton (.ofString text) = .ok (.ok ⟨.v6 ip, 0⟩) := by
  have whole := parseAddress_of_isText exact_ (isText.notMem not_occurs_zero) isText
  have colon : 58 ∈ text := isText.symbols.1
  obtain ⟨host, port, rfl, last⟩ := Search.exists_last colon
  rw [parseView_ofString_of_colon pton last]
  by_cases bracket : port.getLast? = some 93
  · rw [if_pos bracket, whole]
  · obtain ⟨number, reads, nonempty⟩ := readable host port rfl last bracket
    rw [if_neg bracket, stoul_eq_ok_iff.mpr reads, parseAnswer]
    by_cases large : 65535 < number
    · rw [if_pos large, whole]
    · rw [if_neg large, if_neg (nonempty (by omega))]
      cases parsed : parseHost pton host with
      | ok addr => exact absurd isText (not_isText_of_parseHost exact_ last parsed ip)
      | error error => exact congrArg Except.ok whole

/-- `parse` is safe exactly where a number that may be a port follows the last colon. -/
theorem parsesSafely_iff
    {pton : InetPton}
    (exact_ : pton.Exact)
    (text : Bytes) :
    ParsesSafely pton text ↔ PortReadable text := by
  constructor
  · rintro ⟨returns, -⟩ host port rfl last bracket
    rw [parseView_ofString_of_colon pton last, if_neg bracket, parseAnswer_returns_iff] at returns
    obtain ⟨number, isNumber, nonempty⟩ := returns
    exact ⟨number, stoul_eq_ok_iff.mp isNumber, nonempty⟩
  · exact fun readable => ⟨readable.returns pton, fun ip => readable.acceptsBare exact_⟩

/-- `1.2.3.4:80`. -/
theorem parsesSafely_port : ParsesSafely reader [49, 46, 50, 46, 51, 46, 52, 58, 56, 48] := by
  refine (parsesSafely_iff exact_reader _).mpr ?_
  rintro host port whole last -
  have split : [49, 46, 50, 46, 51, 46, 52] ++ 58 :: [56, 48] = host ++ 58 :: port := whole
  obtain ⟨rfl, rfl⟩ := Search.last_unique split (by decide) last
  exact ⟨80, stoul_eq_ok_iff.mp rfl, fun _ => by decide⟩

/-- `fe80::`. -/
theorem not_parsesSafely_trailingColon : ¬ParsesSafely reader [102, 101, 56, 48, 58, 58] := by
  rintro ⟨⟨outcome, returns⟩, -⟩
  have crashes : parseView reader (.ofString [102, 101, 56, 48, 58, 58]) = .error .terminate := rfl
  cases crashes.symm.trans returns

/-! ## What is accepted -/

/-- An endpoint is returned only for a text that denotes it. -/
def AcceptsOnlyTexts (pton : InetPton) (text : Bytes) : Prop :=
  ∀ endpoint, parseView pton (.ofString text) = .ok (.ok endpoint) → endpoint.IsText text

/-- Where what follows the last colon starts with a number that may be a port, it has only
digits if a host stands before it, and no address in two pairs of brackets does. -/
def PortStrict (text : Bytes) : Prop :=
  ∀ host port number, text = host ++ 58 :: port → 58 ∉ port → port.getLast? ≠ some 93 →
    ReadsAs port number → number ≤ 65535 →
      (∀ addr : IpAddress, addr.IsHost host → ∀ ch ∈ port, isDigit ch = true) ∧
        ∀ ip : V6, ¬ip.IsBracketedTwice host

/-- The text of an endpoint in which a host stands before the last colon has a port there. -/
theorem IsText.exists_port
    {endpoint : Endpoint} {host port : Bytes}
    (isText : endpoint.IsText (host ++ 58 :: port))
    (last : 58 ∉ port)
    (bracket : port.getLast? ≠ some 93)
    (foreign : 58 ∉ host ∨ 91 ∈ host) :
    endpoint.addr.IsHost host ∧ IsPort port endpoint.port := by
  generalize whole : host ++ 58 :: port = text at isText
  cases isText with
  | v4 isText =>
      have colon : 58 ∈ text := by simp [← whole]
      exact absurd colon isText.symbols.2.1
  | v6 isText =>
      subst whole
      rcases foreign with noColon | inside
      · rcases AddressText.Alphabet.Denotes.colon_mem isText with before | after
        · exact absurd before noColon
        · exact absurd after last
      · exact absurd (List.mem_append_left _ inside) (isText.notMem not_occurs_open)
  | bracketed isBracketed =>
      obtain ⟨inner, rfl, -⟩ := isBracketed
      have closes : (host ++ 58 :: port).getLast? = some 93 := by
        rw [whole]
        exact List.getLast?_concat (l := 91 :: inner)
      exact absurd ((getLast?_append_colon host port).mp closes) bracket
  | @port addr host' digits number isHost isPort =>
      have noColon : 58 ∉ digits := fun present =>
        absurd (isPort.areDigits 58 present) (by decide)
      obtain ⟨rfl, rfl⟩ := Search.last_unique whole last noColon
      exact ⟨isHost, isPort⟩

/-- Digits that `stoul` reads write their number. -/
theorem isPort_of_readsAs
    {port : Bytes} {number : Nat}
    (reads : ReadsAs port number)
    (digits : ∀ ch ∈ port, isDigit ch = true)
    (small : number ≤ 65535) :
    IsPort port (UInt16.ofNat (number &&& 0xFFFF)) := by
  obtain ⟨sign, found, rest, parts, nonempty, -, value⟩ := reads
  have whole : NumberParts port [] port [] :=
    { blanks := ⟨[], by simp, by simp⟩
      isSign := Or.inl rfl
      settles := by
        intro _ ch first
        rw [List.append_nil] at first
        exact settles_of_isDigit (digits ch (List.mem_of_head? first))
      areDigits := digits
      stops := by simp }
  obtain ⟨sameSign, sameDigits, -⟩ := parts.eq_stoul
  obtain ⟨noSign, allDigits, -⟩ := whole.eq_stoul
  obtain rfl := noSign.symm.trans sameSign
  obtain rfl := allDigits.symm.trans sameDigits
  have isValue : digitsValue port = number := value
  refine ⟨nonempty, digits, ?_⟩
  rw [Nat.and_two_pow_sub_one_eq_mod number 16, isValue, UInt16.toNat_ofNat']
  omega

/-- A host has a bracket or no colon. -/
theorem foreign_of_isHost
    {addr : IpAddress} {host : Bytes}
    (isHost : addr.IsHost host) :
    host ≠ [] ∧ (58 ∉ host ∨ 91 ∈ host) := by
  cases isHost with
  | v4 isText => exact ⟨List.ne_nil_of_mem isText.symbols.1, Or.inl isText.symbols.2.1⟩
  | v6 isBracketed =>
      obtain ⟨inner, rfl, -⟩ := isBracketed
      exact ⟨List.cons_ne_nil _ _, Or.inr List.mem_cons_self⟩

/-- An address in two pairs of brackets is not one in one pair. -/
theorem not_isHost_of_isBracketedTwice
    {ip : V6} {addr : IpAddress} {host : Bytes}
    (twice : ip.IsBracketedTwice host) :
    ¬addr.IsHost host := by
  obtain ⟨inner, rfl, innermost, rfl, -⟩ := twice
  intro isHost
  cases isHost with
  | v4 isText => exact not_occurs_open (isText.occurs 91 List.mem_cons_self)
  | v6 isBracketed =>
      obtain ⟨other, same, isText⟩ := isBracketed
      obtain rfl := List.append_cancel_right (List.cons.inj same).2
      exact isText.notMem not_occurs_open List.mem_cons_self

/-- What `parse` makes of an accepted host and a small number. -/
theorem parseView_of_parseHost
    {pton : InetPton} {host port : Bytes} {number : Nat} {addr : IpAddress}
    (last : 58 ∉ port)
    (bracket : port.getLast? ≠ some 93)
    (reads : ReadsAs port number)
    (small : number ≤ 65535)
    (nonempty : host ≠ [])
    (parsed : parseHost pton host = .ok addr) :
    parseView pton (.ofString (host ++ 58 :: port)) =
      .ok (.ok ⟨addr, UInt16.ofNat (number &&& 0xFFFF)⟩) := by
  rw [parseView_ofString_of_colon pton last, if_neg bracket, stoul_eq_ok_iff.mpr reads, parseAnswer,
    if_neg (by omega), if_neg nonempty, parsed]

theorem AcceptsOnlyTexts.portStrict
    {pton : InetPton} {text : Bytes}
    (exact_ : pton.Exact)
    (noZero : 0 ∉ text)
    (accepts : AcceptsOnlyTexts pton text) :
    PortStrict text := by
  rintro host port number rfl last bracket reads small
  have noZeroBefore : 0 ∉ host := fun present => noZero (List.mem_append_left _ present)
  constructor
  · intro addr isHost
    obtain ⟨nonempty, foreign⟩ := foreign_of_isHost isHost
    have parsed := (parseHost_eq_ok_iff exact_ noZeroBefore addr).mpr (Or.inl isHost)
    have isText := accepts _ (parseView_of_parseHost last bracket reads small nonempty parsed)
    exact (isText.exists_port last bracket foreign).2.areDigits
  · intro ip twice
    have opens : 91 ∈ host := by
      obtain ⟨inner, rfl, -⟩ := twice
      exact List.mem_cons_self
    have parsed := (parseHost_eq_ok_iff exact_ noZeroBefore _).mpr (Or.inr ⟨ip, rfl, twice⟩)
    have isText := accepts _
      (parseView_of_parseHost last bracket reads small (List.ne_nil_of_mem opens) parsed)
    exact not_isHost_of_isBracketedTwice twice (isText.exists_port last bracket (Or.inr opens)).1

theorem PortStrict.acceptsOnlyTexts
    {pton : InetPton} {text : Bytes}
    (exact_ : pton.Exact)
    (noZero : 0 ∉ text)
    (strict : PortStrict text) :
    AcceptsOnlyTexts pton text := by
  intro endpoint returned
  have whole : parseAddress pton text = .ok endpoint → endpoint.IsText text :=
    isText_of_parseAddress exact_ noZero
  by_cases colon : 58 ∈ text
  · obtain ⟨host, port, rfl, last⟩ := Search.exists_last colon
    have noZeroBefore : 0 ∉ host := fun present => noZero (List.mem_append_left _ present)
    rw [parseView_ofString_of_colon pton last] at returned
    by_cases bracket : port.getLast? = some 93
    · rw [if_pos bracket] at returned
      exact whole (Except.ok.inj returned)
    · rw [if_neg bracket] at returned
      cases answer : stoul port with
      | error error =>
          rw [answer] at returned
          cases returned
      | ok number =>
          have reads := stoul_eq_ok_iff.mp answer
          rw [answer, parseAnswer] at returned
          split_ifs at returned with large noHost
          · exact whole (Except.ok.inj returned)
          · have small : number ≤ 65535 := by omega
            have limits := strict host port number rfl last bracket reads small
            cases parsed : parseHost pton host with
            | ok addr =>
                rw [parsed] at returned
                obtain rfl := Except.ok.inj (Except.ok.inj returned)
                rcases (parseHost_eq_ok_iff exact_ noZeroBefore addr).mp parsed with
                  isHost | ⟨ip, -, twice⟩
                · exact .port isHost (isPort_of_readsAs reads (limits.1 addr isHost) small)
                · exact absurd twice (limits.2 ip)
            | error error =>
                rw [parsed] at returned
                exact whole (Except.ok.inj returned)
  · rw [parseView_of_notMem pton colon] at returned
    exact whole (Except.ok.inj returned)

/-- An endpoint is returned only for its texts exactly where `stoul` reads whole ports and no
address stands in two pairs of brackets. -/
theorem acceptsOnlyTexts_iff
    {pton : InetPton}
    (exact_ : pton.Exact)
    (text : CharString) :
    AcceptsOnlyTexts pton text.chars ↔ PortStrict text.chars :=
  ⟨AcceptsOnlyTexts.portStrict exact_ text.noZero, PortStrict.acceptsOnlyTexts exact_ text.noZero⟩

/-- `1.2.3.4:80`. -/
theorem acceptsOnlyTexts_port :
    AcceptsOnlyTexts reader [49, 46, 50, 46, 51, 46, 52, 58, 56, 48] := by
  refine (acceptsOnlyTexts_iff exact_reader ⟨_, by decide⟩).mpr ?_
  rintro host port number whole last - - -
  have split : [49, 46, 50, 46, 51, 46, 52] ++ 58 :: [56, 48] = host ++ 58 :: port := whole
  obtain ⟨rfl, rfl⟩ := Search.last_unique split (by decide) last
  have digits : ∀ ch ∈ ([56, 48] : Bytes), isDigit ch = true :=
    List.forall_mem_cons.mpr ⟨rfl, List.forall_mem_singleton.mpr rfl⟩
  refine ⟨fun _ _ => digits, ?_⟩
  rintro ip ⟨inner, same, -⟩
  exact absurd (List.cons.inj same).1 (by decide)

/-- `1.2.3.4:+8`. -/
theorem not_acceptsOnlyTexts_signedPort :
    ¬AcceptsOnlyTexts reader [49, 46, 50, 46, 51, 46, 52, 58, 43, 56] := by
  intro accepts
  have returned : parseView reader (.ofString [49, 46, 50, 46, 51, 46, 52, 58, 43, 56]) =
      .ok (.ok ⟨.v4 ⟨0x01020304⟩, 8⟩) := rfl
  have isText : IsText ⟨.v4 ⟨0x01020304⟩, 8⟩ ([49, 46, 50, 46, 51, 46, 52] ++ 58 :: [43, 56]) :=
    accepts _ returned
  have isPort := (isText.exists_port (by decide) (by decide) (Or.inl (by decide))).2
  exact absurd (isPort.areDigits 43 List.mem_cons_self) (by decide)

end Endpoint

end Cppio
