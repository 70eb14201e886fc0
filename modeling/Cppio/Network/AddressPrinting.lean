import Cppio.Library.Runs
import Cppio.Network.Ip

/-!
# Printed addresses

What `to_string` writes for an address denotes that address in the presentation
formats, so that an exact `inet_pton` gives back its bytes.  For `ip::v6` the
run of zero words that the first loop finds lies inside the address and is all
zero, whichever run it is; the second loop leaves exactly this run out.
-/

namespace Cppio

open Http (Bytes isDigit)

namespace Ip

/-! ## Numerals -/

theorem hex_digitByte {digit : Nat} (small : digit < 16) :
    alphabet.hex (digitByte digit) = some digit := by
  have all : ∀ digit < 16, alphabet.hex (digitByte digit) = some digit := by decide
  exact all digit small

theorem decimal_digitByte {digit : Nat} (small : digit < 10) :
    alphabet.decimal (digitByte digit) = some digit := by
  have all : ∀ digit < 10, alphabet.decimal (digitByte digit) = some digit := by decide
  exact all digit small

theorem map_numeral
    {digit : UInt8 → Option Nat} {base : Nat}
    (large : 1 < base)
    (reads : ∀ value < base, digit (digitByte value) = some value)
    (number : Nat) :
    (numeral base number).map digit = (Numeral.write base number).map some := by
  rw [numeral, List.map_map]
  exact List.map_congr_left fun value present =>
    reads value (Numeral.lt_of_mem_write large present)

/-- A number of few digits is read from its numeral. -/
theorem number_numeral
    {digit : UInt8 → Option Nat} {base count number : Nat}
    (large : 1 < base)
    (reads : ∀ value < base, digit (digitByte value) = some value)
    (positive : 0 < count)
    (small : number < base ^ count) :
    AddressText.number digit base count (numeral base number) = some number := by
  refine AddressText.number_eq_some.mpr
    ⟨numeral_ne_nil base number, ?_, Numeral.write base number, map_numeral large reads number,
      Numeral.read_write base number⟩
  rw [numeral, List.length_map]
  exact Numeral.length_write_le large positive small

theorem group_numeral {word : Nat} (small : word < 16 ^ 4) :
    alphabet.group (numeral 16 word) = some word :=
  number_numeral (by decide) (fun _ => hex_digitByte) (by decide) small

theorem octet_toString {value : Nat} (small : value < 256) :
    alphabet.octet (Cppio.toString value) = some value := by
  have read : AddressText.number alphabet.decimal 10 3 (Cppio.toString value) = some value :=
    number_numeral (by decide) (fun _ => decimal_digitByte) (by decide) (by omega)
  have unpadded : alphabet.padded (Cppio.toString value) = false :=
    AddressText.Alphabet.padded_of_isShortest
      (map_numeral (by decide) (fun _ => decimal_digitByte) value)
      (Numeral.isShortest_write (by decide) value)
  exact Option.filter_eq_some_iff.mpr ⟨read, by simpa [unpadded] using small⟩

/-- A byte that occurs in printed addresses between the brackets. -/
def Inside (ch : UInt8) : Prop :=
  ch ≠ 0 ∧ ch ≠ 91 ∧ ch ≠ 93

instance (ch : UInt8) : Decidable (Inside ch) :=
  inferInstanceAs (Decidable (_ ∧ _ ∧ _))

theorem inside_of_mem_numeral
    {base number : Nat} {ch : UInt8}
    (large : 1 < base)
    (small : base ≤ 16)
    (present : ch ∈ numeral base number) :
    Inside ch := by
  have all : ∀ digit < 16, Inside (digitByte digit) := by decide
  obtain ⟨digit, written, rfl⟩ := List.mem_map.mp present
  exact all digit ((Numeral.lt_of_mem_write large written).trans_le small)

theorem cString_of_inside
    {text : Bytes}
    (inside : ∀ ch ∈ text, Inside ch) :
    cString text = text :=
  List.takeWhile_eq_self_iff.mpr fun ch present => by simpa using (inside ch present).1

/-- Numerals joined by a byte that may stand between them. -/
theorem inside_of_mem_intercalate
    {separator ch : UInt8} {texts : List Bytes}
    (between : Inside separator)
    (inside : ∀ text ∈ texts, ∀ ch ∈ text, Inside ch)
    (present : ch ∈ [separator].intercalate texts) :
    Inside ch := by
  rcases AddressText.mem_intercalate present with rfl | ⟨text, member, there⟩
  · exact between
  · exact inside text member ch there

/-! ## `ip::v4` -/

namespace V4

/-- The octets in the order in which they are printed. -/
def octets (ip : V4) : List Nat :=
  [(ip.address >>> 24) &&& 0xFF, (ip.address >>> 16) &&& 0xFF, (ip.address >>> 8) &&& 0xFF,
    (ip.address >>> 0) &&& 0xFF].map UInt32.toNat

theorem toString_eq (ip : V4) :
    ip.toString = [46].intercalate (ip.octets.map Cppio.toString) := by
  simp [toString, octets, List.intercalate_cons_cons]

theorem octets_lt (ip : V4) : ∀ octet ∈ ip.octets, octet < 256 := by
  intro octet present
  obtain ⟨masked, member, rfl⟩ := List.mem_map.mp present
  have bound : ∀ word : UInt32, (word &&& 0xFF).toNat < 256 := fun word =>
    lt_of_le_of_lt (by rw [UInt32.toNat_and]; exact Nat.and_le_right) (by decide : 255 < 256)
  simp only [List.mem_cons, List.not_mem_nil, or_false] at member
  rcases member with rfl | rfl | rfl | rfl <;> exact bound _

theorem dottedDecimal_toString (ip : V4) :
    alphabet.DottedDecimal ip.toString ip.octets := by
  refine ⟨ip.octets.map Cppio.toString, ip.toString_eq, rfl, ?_⟩
  rw [List.map_map]
  exact List.map_congr_left fun octet present => octet_toString (ip.octets_lt octet present)

theorem ofNetwork_octets (ip : V4) : ofNetwork (ip.octets.map UInt8.ofNat) = ip := by
  obtain ⟨address⟩ := ip
  have bound := address.toNat_lt
  have mask : ∀ number : Nat, number &&& 255 = number % 256 := fun number =>
    Nat.and_two_pow_sub_one_eq_mod number 8
  have read : Numeral.read 256
      ((octets ⟨address⟩).map UInt8.ofNat |>.map UInt8.toNat) = address.toNat := by
    simp [octets, Numeral.read, Nat.shiftRight_eq_div_pow, mask]
    omega
  rw [ofNetwork, read]
  simp

theorem inside_of_mem_toString (ip : V4) : ∀ ch ∈ ip.toString, Inside ch := by
  intro ch present
  rw [toString_eq] at present
  refine inside_of_mem_intercalate (by decide) (fun text member => ?_) present
  obtain ⟨octet, -, rfl⟩ := List.mem_map.mp member
  exact fun ch there => inside_of_mem_numeral (by decide) (by decide) there

/-- An exact `inet_pton` reads what `v4::to_string` wrote. -/
theorem parse_printed
    {pton : InetPton}
    (exact_ : pton.Exact)
    (ip : V4) :
    parse pton ip.toString = .ok ip := by
  have stored : pton.v4 ip.toString = some (ip.octets.map UInt8.ofNat) :=
    (exact_.v4 _ _).mpr ⟨ip.octets, ip.dottedDecimal_toString, rfl⟩
  rw [parse, cString_of_inside ip.inside_of_mem_toString, stored]
  exact congrArg Except.ok ip.ofNetwork_octets

end V4

/-! ## `ip::v6` -/

namespace V6

/-- The run lies inside the words, which are zero there. -/
def IsZeroRun (words : List UInt16) (zeros : ZeroRun) : Prop :=
  zeros.index + zeros.length ≤ words.length ∧
    (words.drop zeros.index).take zeros.length = List.replicate zeros.length 0

theorem isZeroRun_skipZeros
    {words : List UInt16} {i : Nat}
    (inside : i ≤ words.length) :
    IsZeroRun words ⟨skipZeros words i - i, i⟩ := by
  have isPrefix : (words.drop i).takeWhile (fun word => decide (word = 0)) <+: words.drop i :=
    List.takeWhile_prefix _
  have short := isPrefix.length_le
  rw [List.length_drop] at short
  unfold IsZeroRun skipZeros
  rw [Nat.add_sub_cancel_left]
  refine ⟨by dsimp only; omega, ?_⟩
  rw [← List.prefix_iff_eq_take.mp isPrefix, List.eq_replicate_iff]
  exact ⟨rfl, fun word present => by simpa using List.mem_takeWhile_imp present⟩

/-- The first loop finds a run of zero words. -/
theorem isZeroRun_findZeros
    {words : List UInt16} {fuel i : Nat} {zeros : ZeroRun}
    (isRun : IsZeroRun words zeros) :
    IsZeroRun words (findZeros words fuel i zeros) := by
  induction fuel generalizing i zeros with
  | zero => exact isRun
  | succ fuel inductionHypothesis =>
      unfold findZeros
      split_ifs with inside isZero
      · apply inductionHypothesis
        split_ifs
        · exact isZeroRun_skipZeros inside.le
        · exact isRun
      · exact inductionHypothesis isRun
      · exact isRun

/-- A word in base sixteen. -/
def hexWord (word : UInt16) : Bytes :=
  numeral 16 word.toNat

theorem group_hexWord (word : UInt16) : alphabet.group (hexWord word) = some word.toNat :=
  group_numeral (by simpa using word.toNat_lt)

theorem groups_hexWord (words : List UInt16) :
    (words.map hexWord).map alphabet.group = (words.map UInt16.toNat).map some := by
  rw [List.map_map, List.map_map]
  exact List.map_congr_left fun word _ => group_hexWord word

/-- One word and those after it. -/
theorem drop_eq_cons
    {words : List UInt16} {i : Nat}
    (inside : i < words.length) :
    words.drop i = words.getD i 0 :: words.drop (i + 1) := by
  rw [List.drop_eq_getElem_cons inside]
  simp [inside]

/-- Where no run is left out, the words are printed with colons between them. -/
theorem printWords_plain
    {words : List UInt16} {zeros : ZeroRun} {fuel i : Nat}
    (eight : words.length = 8)
    (passed : zeros.length ≤ 1 ∨ zeros.index < i)
    (enough : 8 ≤ i + fuel) :
    printWords words zeros fuel i = [58].intercalate ((words.drop i).map hexWord) := by
  induction fuel generalizing i with
  | zero =>
      rw [List.drop_eq_nil_of_le (by omega)]
      rfl
  | succ fuel inductionHypothesis =>
      unfold printWords
      by_cases inside : i < words.length
      · have rest := inductionHypothesis (i := i + 1) (by omega) (by omega)
        have notRun : ¬(i = zeros.index ∧ zeros.length > 1) := by omega
        rw [if_pos inside, if_neg notRun, rest, drop_eq_cons inside, List.map_cons]
        by_cases last : i < 7
        · have more : (words.drop (i + 1)).map hexWord ≠ [] := by
            rw [Ne, List.map_eq_nil_iff, List.drop_eq_nil_iff]
            omega
          rw [if_pos ⟨last, by omega⟩, List.intercalate_cons_of_ne_nil more]
          rfl
        · rw [if_neg (fun both => last both.1), List.drop_eq_nil_of_le (by omega)]
          simp [hexWord]
      · rw [if_neg inside, List.drop_eq_nil_of_le (by omega)]
        rfl

/-- Two colons stand in place of the run. -/
theorem printWords_compressed
    {words : List UInt16} {zeros : ZeroRun} {fuel i : Nat}
    (eight : words.length = 8)
    (isRun : IsZeroRun words zeros)
    (long : zeros.length > 1)
    (before : i ≤ zeros.index)
    (enough : 8 ≤ i + fuel) :
    printWords words zeros fuel i =
      [58].intercalate (((words.drop i).take (zeros.index - i)).map hexWord) ++ 58 :: 58 ::
        [58].intercalate ((words.drop (zeros.index + zeros.length)).map hexWord) := by
  have fits := isRun.1
  induction fuel generalizing i with
  | zero => omega
  | succ fuel inductionHypothesis =>
      have inside : i < words.length := by omega
      unfold printWords
      rw [if_pos inside]
      by_cases atRun : i = zeros.index
      · have rest : printWords words zeros fuel (i + zeros.length) =
            [58].intercalate ((words.drop (i + zeros.length)).map hexWord) :=
          printWords_plain eight (Or.inr (by omega)) (by omega)
        rw [if_pos ⟨atRun, long⟩, rest, ← atRun, Nat.sub_self, List.take_zero]
        rfl
      · have rest := inductionHypothesis (i := i + 1) (by omega) (by omega)
        have one : zeros.index - i = zeros.index - (i + 1) + 1 := by omega
        rw [if_neg (fun both => atRun both.1), rest, drop_eq_cons inside, one,
          List.take_succ_cons, List.map_cons]
        by_cases next : i + 1 = zeros.index
        · rw [if_neg (by omega), next, Nat.sub_self, List.take_zero]
          simp [hexWord]
        · have more : ((words.drop (i + 1)).take (zeros.index - (i + 1))).map hexWord ≠ [] := by
            rw [Ne, List.map_eq_nil_iff, List.take_eq_nil_iff, List.drop_eq_nil_iff]
            omega
          rw [if_pos ⟨by omega, Or.inl next⟩, List.intercalate_cons_of_ne_nil more]
          simp [hexWord]

/-- What is printed denotes the words. -/
theorem denotes_print (ip : V6) :
    alphabet.Denotes ip.print (ip.words.map UInt16.toNat) := by
  have initially : IsZeroRun ip.words ⟨0, 0⟩ := ⟨Nat.zero_le _, rfl⟩
  have isRun : IsZeroRun ip.words (findZeros ip.words 8 0 ⟨0, 0⟩) :=
    isZeroRun_findZeros initially
  unfold print
  generalize findZeros ip.words 8 0 ⟨0, 0⟩ = zeros at isRun
  have eight := ip.eight
  by_cases long : zeros.length > 1
  · rw [printWords_compressed eight isRun long (Nat.zero_le _) (Nat.le_refl _), Nat.sub_zero,
      List.drop_zero]
    have fits := isRun.1
    have denotes := AddressText.Alphabet.Denotes.compressed
      (groups_hexWord (ip.words.take zeros.index))
      (AddressText.Alphabet.row_of_groups
        (groups_hexWord (ip.words.drop (zeros.index + zeros.length))))
      (by simp only [List.length_map, List.length_take, List.length_drop]; omega)
    have missing : 8 - (((ip.words.take zeros.index).map UInt16.toNat).length +
        ((ip.words.drop (zeros.index + zeros.length)).map UInt16.toNat).length) =
          zeros.length := by
      simp only [List.length_map, List.length_take, List.length_drop]
      omega
    have whole : ip.words = ip.words.take zeros.index ++ List.replicate zeros.length 0 ++
        ip.words.drop (zeros.index + zeros.length) := by
      rw [List.append_assoc]
      exact Runs.IsRun.split isRun
    rw [missing] at denotes
    have sameWords := congrArg (List.map UInt16.toNat) whole
    rw [List.map_append, List.map_append, List.map_replicate] at sameWords
    rw [sameWords]
    exact denotes
  · rw [printWords_plain eight (Or.inl (by omega)) (Nat.le_refl _), List.drop_zero]
    exact .full (AddressText.Alphabet.row_of_groups (groups_hexWord ip.words))
      (by rw [List.length_map, eight])

/-- The bytes of a word give it back. -/
theorem word_networkOrder (word : UInt16) :
    256 * (UInt8.ofNat (word.toNat / 256)).toUInt16 +
      (UInt8.ofNat (word.toNat % 256)).toUInt16 = word := by
  have bound := word.toNat_lt
  apply UInt16.toNat_inj.mp
  simp
  omega

theorem ofNetwork_words (ip : V6) :
    ofNetwork ((ip.words.map UInt16.toNat).flatMap networkOrder) = ip := by
  obtain ⟨words, eight⟩ := ip
  match words, eight with
  | [first, second, third, fourth, fifth, sixth, seventh, eighth], eight =>
      simp [ofNetwork, List.range_succ, networkOrder, word_networkOrder]

theorem inside_of_mem_printWords
    {words : List UInt16} {zeros : ZeroRun} {fuel i : Nat} {ch : UInt8}
    (present : ch ∈ printWords words zeros fuel i) :
    Inside ch := by
  have colon : Inside 58 := by decide
  induction fuel generalizing i with
  | zero => cases present
  | succ fuel inductionHypothesis =>
      unfold printWords at present
      split_ifs at present <;> simp only [List.mem_append, List.mem_cons, List.not_mem_nil,
        or_false, or_self] at present
      · rcases present with rfl | later
        · exact colon
        · exact inductionHypothesis later
      · rcases present with (inWord | rfl) | later
        · exact inside_of_mem_numeral (by decide) (by decide) inWord
        · exact colon
        · exact inductionHypothesis later
      · rcases present with inWord | later
        · exact inside_of_mem_numeral (by decide) (by decide) inWord
        · exact inductionHypothesis later

theorem inside_of_mem_print (ip : V6) : ∀ ch ∈ ip.print, Inside ch :=
  fun _ present => inside_of_mem_printWords present

end V6

end Ip

end Cppio
