import Cppio.Network.AddressPrinting

/-!
# Which addresses are parsed

With an exact `inet_pton`, `v4::parse` accepts the dotted decimals, and
`v6::parse` the texts of eight words, alone or in one pair of brackets; what
they return is the address that the text denotes.
-/

namespace Cppio

open Http (Bytes isDigit)

namespace Ip

/-! ## The bytes of addresses -/

theorem not_occurs
    {ch : UInt8}
    (notDot : ch ≠ 46)
    (notColon : ch ≠ 58)
    (notDecimal : alphabet.decimal ch = none)
    (notHex : alphabet.hex ch = none) :
    ¬alphabet.Occurs ch := by
  rintro (isDot | isColon | ⟨value, isDecimal⟩ | ⟨value, isHex⟩)
  · exact notDot isDot
  · exact notColon isColon
  · exact absurd (notDecimal.symm.trans isDecimal) (by simp)
  · exact absurd (notHex.symm.trans isHex) (by simp)

theorem not_occurs_zero : ¬alphabet.Occurs 0 :=
  not_occurs (by decide) (by decide) rfl rfl

theorem not_occurs_open : ¬alphabet.Occurs 91 :=
  not_occurs (by decide) (by decide) rfl rfl

theorem hex_lt {ch : UInt8} {value : Nat} (isHex : alphabet.hex ch = some value) : value < 16 := by
  obtain ⟨isDigit, same⟩ := Option.ite_none_right_eq_some.mp isHex
  obtain rfl := Option.some.inj same
  exact digitValue_lt_of_isXDigit isDigit

theorem cString_of_notMem
    {text : Bytes}
    (noZero : 0 ∉ text) :
    cString text = text :=
  List.takeWhile_eq_self_iff.mpr fun ch present => by
    simpa using ne_of_mem_of_not_mem present noZero

/-! ## `ip::v4` -/

namespace V4

/-- The dotted decimal denotes the address. -/
def IsText (ip : V4) (text : Bytes) : Prop :=
  alphabet.DottedDecimal text ip.octets

theorem octets_ofNetwork
    {octets : List Nat}
    (four : octets.length = 4)
    (small : ∀ octet ∈ octets, octet < 256) :
    (ofNetwork (octets.map UInt8.ofNat)).octets = octets := by
  have mask : ∀ number : Nat, number &&& 255 = number % 256 := fun number =>
    Nat.and_two_pow_sub_one_eq_mod number 8
  match octets, four with
  | [first, second, third, fourth], _ =>
      simp only [List.mem_cons, List.not_mem_nil, or_false, forall_eq_or_imp, forall_eq] at small
      simp [ofNetwork, V4.octets, Numeral.read, Nat.shiftRight_eq_div_pow, mask]
      omega

/-- An exact `inet_pton` stores the address of the text. -/
theorem pton_eq_some_iff
    {pton : InetPton}
    (exact_ : pton.Exact)
    (text : Bytes) (ip : V4) :
    (∃ bytes, pton.v4 text = some bytes ∧ ofNetwork bytes = ip) ↔ ip.IsText text := by
  constructor
  · rintro ⟨bytes, stored, rfl⟩
    obtain ⟨octets, dotted, rfl⟩ := (exact_.v4 _ _).mp stored
    unfold IsText
    rwa [octets_ofNetwork dotted.symbols.2.2 dotted.octets_lt]
  · intro isText
    exact ⟨_, (exact_.v4 _ _).mpr ⟨ip.octets, isText, rfl⟩, ip.ofNetwork_octets⟩

theorem parse_eq_ok_iff
    {pton : InetPton} {text : Bytes}
    (exact_ : pton.Exact)
    (noZero : 0 ∉ text)
    (ip : V4) :
    parse pton text = .ok ip ↔ ip.IsText text := by
  rw [← pton_eq_some_iff exact_, parse, cString_of_notMem noZero]
  cases pton.v4 text with
  | none => simp
  | some bytes => simp

end V4

/-! ## `ip::v6` -/

namespace V6

/-- The text denotes the address. -/
def IsText (ip : V6) (text : Bytes) : Prop :=
  alphabet.Denotes text (ip.words.map UInt16.toNat)

/-- The text denotes the address, in one pair of brackets. -/
def IsBracketed (ip : V6) (text : Bytes) : Prop :=
  ∃ inner, text = 91 :: (inner ++ [93]) ∧ ip.IsText inner

theorem exists_words
    {words : List Nat}
    (eight : words.length = 8)
    (small : ∀ word ∈ words, word < 65536) :
    ∃ ip : V6, ip.words.map UInt16.toNat = words := by
  refine ⟨⟨words.map UInt16.ofNat, by rw [List.length_map, eight]⟩, ?_⟩
  rw [List.map_map]
  refine (List.map_congr_left fun word present => ?_).trans (List.map_id _)
  exact Nat.mod_eq_of_lt (small word present)

theorem pton_eq_some_iff
    {pton : InetPton}
    (exact_ : pton.Exact)
    (text : Bytes) (ip : V6) :
    (∃ bytes, pton.v6 text = some bytes ∧ ofNetwork bytes = ip) ↔ ip.IsText text := by
  constructor
  · rintro ⟨bytes, stored, rfl⟩
    obtain ⟨words, denotes, rfl⟩ := (exact_.v6 _ _).mp stored
    obtain ⟨ip, rfl⟩ := exists_words denotes.eight (denotes.words_lt fun _ _ => hex_lt)
    rwa [ofNetwork_words]
  · intro isText
    exact ⟨_, (exact_.v6 _ _).mpr ⟨_, isText, rfl⟩, ip.ofNetwork_words⟩

theorem IsText.notMem
    {ip : V6} {text : Bytes} {ch : UInt8}
    (isText : ip.IsText text)
    (absent : ¬alphabet.Occurs ch) :
    ch ∉ text := fun present => absent (isText.occurs ch present)

/-- A text in brackets is given to `inet_pton` without them. -/
theorem parse_brackets
    {pton : InetPton} {inner : Bytes}
    (exact_ : pton.Exact)
    (noZero : 0 ∉ inner)
    (ip : V6) :
    parse pton (91 :: (inner ++ [93])) = .ok ip ↔ ip.IsText inner := by
  have long : ¬(91 :: (inner ++ [93])).length < 2 := by simp
  have cut :
      ((91 :: (inner ++ [93])).drop 1).take ((91 :: (inner ++ [93])).length - 2) = inner := by
    simp
  have rejected : pton.v6 (cString (91 :: (inner ++ [93]))) = none := by
    rw [cString_of_notMem (by simp [noZero])]
    by_contra accepted
    obtain ⟨bytes, stored⟩ := Option.ne_none_iff_exists'.mp accepted
    have isText := (pton_eq_some_iff exact_ _ _).mp ⟨bytes, stored, rfl⟩
    exact isText.notMem not_occurs_open List.mem_cons_self
  have last : (91 :: (inner ++ [93])).getLast? = some 93 :=
    List.getLast?_concat (l := 91 :: inner)
  rw [← pton_eq_some_iff exact_, parse, if_neg long]
  dsimp only
  rw [cut, if_pos ⟨rfl, last⟩, cString_of_notMem noZero, rejected, Option.or_none]
  cases pton.v6 inner with
  | none => simp
  | some bytes => simp

/-- Any other text is given to it as it is. -/
theorem parse_plain
    {pton : InetPton} {text : Bytes}
    (exact_ : pton.Exact)
    (noZero : 0 ∉ text)
    (plain : ¬(text.head? = some 91 ∧ text.getLast? = some 93))
    (ip : V6) :
    parse pton text = .ok ip ↔ ip.IsText text := by
  by_cases short : text.length < 2
  · rw [parse, if_pos short]
    refine iff_of_false (by simp) fun isText => ?_
    exact absurd isText.symbols.2 (by omega)
  · rw [← pton_eq_some_iff exact_, parse, if_neg short]
    dsimp only
    rw [if_neg plain, Option.none_or, cString_of_notMem noZero]
    cases pton.v6 text with
    | none => simp
    | some bytes => simp

theorem exists_inner
    {text : Bytes}
    (brackets : text.head? = some 91 ∧ text.getLast? = some 93) :
    ∃ inner, text = 91 :: (inner ++ [93]) := by
  obtain ⟨rest, rfl⟩ := List.head?_eq_some_iff.mp brackets.1
  have nonempty : rest ≠ [] := by
    rintro rfl
    exact absurd brackets.2 (by decide)
  have last : rest.getLast? = some 93 := by
    rw [← brackets.2, List.getLast?_cons_of_ne_nil nonempty]
  obtain ⟨inner, rfl⟩ := List.getLast?_eq_some_iff.mp last
  exact ⟨inner, rfl⟩

theorem parse_eq_ok_iff
    {pton : InetPton} {text : Bytes}
    (exact_ : pton.Exact)
    (noZero : 0 ∉ text)
    (ip : V6) :
    parse pton text = .ok ip ↔ ip.IsText text ∨ ip.IsBracketed text := by
  by_cases brackets : ∃ inner, text = 91 :: (inner ++ [93])
  · obtain ⟨inner, rfl⟩ := brackets
    rw [parse_brackets exact_ (by simpa using noZero)]
    constructor
    · exact fun isText => Or.inr ⟨inner, rfl, isText⟩
    · rintro (isText | ⟨other, same, isText⟩)
      · exact absurd List.mem_cons_self (isText.notMem not_occurs_open)
      · obtain rfl := List.append_cancel_right (List.cons.inj same).2
        exact isText
  · rw [parse_plain exact_ noZero fun both => brackets (exists_inner both)]
    constructor
    · exact Or.inl
    · rintro (isText | ⟨inner, rfl, -⟩)
      · exact isText
      · exact absurd ⟨inner, rfl⟩ brackets

end V6

end Ip

end Cppio
