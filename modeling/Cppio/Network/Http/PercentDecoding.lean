import Cppio.Library.ByteOrder
import Cppio.Library.Escapes
import Cppio.Network.Ip

/-!
# What percent-decoding makes of a text

The loop of `url_decode` reads only the bytes of its text, and every valid
encoding is decoded.  What `url_encode` writes is one, up to the byte 0 at its
end.  A `%` without two digits after it is not kept, so exactly the texts
without one are decoded as the reference decoder does.
-/

namespace Cppio
namespace Http

/-! ## Characters with a sign -/

/-- A `char` as an `int`. -/
def promote (ch : UInt8) : BitVec 32 :=
  ch.toBitVec.signExtend 32

/-- An `int` cut to a `char`. -/
def narrow (number : BitVec 32) : UInt8 :=
  .ofBitVec (number.setWidth 8)

/-- What `details::from_hex` computes before it is cut to a `char`. -/
def fromHexInt (ch : UInt8) : BitVec 32 :=
  if isDigit ch then promote ch - 48 else promote (toLower ch) - 97 + 10

theorem narrow_fromHexInt (ch : UInt8) : narrow (fromHexInt ch) = fromHex ch :=
  forall_byte (P := fun ch => narrow (fromHexInt ch) = fromHex ch) (by decide +kernel) ch

theorem getLsbD_promote
    (ch : UInt8) {index : Nat}
    (small : index < 8) :
    (promote ch).getLsbD index = ch.toBitVec.getLsbD index := by
  have wide : index < 32 := by omega
  simp only [promote, BitVec.getLsbD_signExtend, wide, small, decide_true, Bool.true_and, if_true]

/-- The disjunction in `url_decode` is cut to the one of the bytes. -/
theorem narrow_shiftLeft_or (high low : UInt8) :
    narrow (promote high <<< 4 ||| promote low) = high <<< 4 ||| low := by
  apply UInt8.toBitVec_inj.mp
  apply BitVec.eq_of_getLsbD_eq
  intro index small
  have wide : index < 32 := by omega
  have shifted : index - 4 < 8 := by omega
  have four : (4 : UInt8).toBitVec % 8 = 4#8 := rfl
  simp only [narrow, UInt8.toBitVec_or, UInt8.toBitVec_shiftLeft, BitVec.getLsbD_setWidth,
    BitVec.getLsbD_or, BitVec.getLsbD_shiftLeft, small, wide, getLsbD_promote low small,
    getLsbD_promote high shifted, four, BitVec.shiftLeft_eq', decide_true, Bool.true_and]
  rfl

/-- `details::from_hex(one) << 4 | details::from_hex(two)`, cut to a `char`. -/
def joinHex (one two : UInt8) : UInt8 :=
  narrow (promote (narrow (fromHexInt one)) <<< 4 ||| promote (narrow (fromHexInt two)))

theorem joinHex_eq (one two : UInt8) : joinHex one two = fromHex one <<< 4 ||| fromHex two := by
  rw [joinHex, narrow_fromHexInt, narrow_fromHexInt, narrow_shiftLeft_or]

/-- The shift in `url_encode` drags the sign along, which `to_hex` masks out. -/
theorem encodeByte_eq_promote (ch : UInt8) :
    encodeByte ch =
      if isAlnum ch || ch == 45 || ch == 95 || ch == 46 || ch == 126 then [ch]
      else [37, toHex (narrow ((promote ch).sshiftRight 4)), toHex (narrow (promote ch &&& 15))] :=
  forall_byte (P := fun ch => encodeByte ch =
      if isAlnum ch || ch == 45 || ch == 95 || ch == 46 || ch == 126 then [ch]
      else [37, toHex (narrow ((promote ch).sshiftRight 4)), toHex (narrow (promote ch &&& 15))])
    (by decide +kernel) ch

/-! ## The loop -/

/-- The variables of the loop in `url_decode`, and the places that it has read. -/
structure DecodeState where
  it : Nat
  result : Bytes
  reads : List Nat

/-- One round of the loop. -/
def decodeRound (memory : Memory) (last : Nat) (s : DecodeState) : DecodeState :=
  let ch := memory s.it
  if ch = 37 then
    let partOne := s.it + 1
    let partTwo := s.it + 2
    if partOne ≠ last ∧ partTwo ≠ last then
      { it := s.it + 2 + 1
        result := s.result ++ [joinHex (memory partOne) (memory partTwo)]
        reads := s.reads ++ [s.it, partOne, partTwo] }
    else { s with it := s.it + 1, reads := s.reads ++ [s.it] }
  else
    { it := s.it + 1
      result := s.result ++ [decodeLiteral ch]
      reads := s.reads ++ [s.it] }

/-- The loop, which stops where `it` is `last`. -/
def decodeLoop (memory : Memory) (last : Nat) : Nat → DecodeState → Option DecodeState
  | 0, _ => none
  | fuel + 1, s =>
      if s.it = last then some s else decodeLoop memory last fuel (decodeRound memory last s)

/-- `url_decode` of a text in the memory. -/
def urlDecodeIn (memory : Memory) (first size : Nat) : Option DecodeState :=
  decodeLoop memory (first + size) (size + 1) ⟨first, [], []⟩

/-- What is written is decoded from what has been passed, and nothing outside of the text
has been read. -/
structure DecodesUpTo (memory : Memory) (first last : Nat) (s : DecodeState) : Prop where
  inside : first ≤ s.it ∧ s.it ≤ last
  result : s.result ++ urlDecode (memory.load s.it (last - s.it)) =
    urlDecode (memory.load first (last - first))
  reads : ∀ place ∈ s.reads, first ≤ place ∧ place < last

namespace DecodesUpTo

variable {memory : Memory} {first last : Nat} {s : DecodeState}

theorem decodeRound
    (decodes : DecodesUpTo memory first last s)
    (more : s.it ≠ last) :
    DecodesUpTo memory first last (decodeRound memory last s) ∧
      s.it < (Http.decodeRound memory last s).it := by
  obtain ⟨⟨behind, before⟩, result, reads⟩ := decodes
  have here : s.it < last := by omega
  rw [memory.load_sub_eq_cons here] at result
  unfold Http.decodeRound
  dsimp only
  split_ifs with isPercent isComplete
  · -- `%` with two bytes after it
    obtain ⟨one, two⟩ := isComplete
    rw [isPercent, memory.load_sub_eq_cons (by omega : s.it + 1 < last),
      memory.load_sub_eq_cons (by omega : s.it + 1 + 1 < last), urlDecode, if_pos rfl] at result
    refine ⟨⟨⟨by dsimp only; omega, by dsimp only; omega⟩, ?_, ?_⟩, by dsimp only; omega⟩
    · rw [← result, List.append_assoc, joinHex_eq]
      rfl
    · refine List.forall_mem_append.mpr ⟨reads, fun place now => ?_⟩
      simp only [List.mem_cons, List.not_mem_nil, or_false] at now
      omega
  · -- `%` too near to the end
    refine ⟨⟨⟨by dsimp only; omega, by dsimp only; omega⟩, ?_, ?_⟩, by dsimp only; omega⟩
    · rw [← result, isPercent]
      by_cases alone : s.it + 1 = last
      · rw [alone, Nat.sub_self, Memory.load_zero]
        rfl
      · have pair : last - (s.it + 1 + 1) = 0 := by omega
        rw [memory.load_sub_eq_cons (by omega : s.it + 1 < last), pair, Memory.load_zero]
        rfl
    · exact List.forall_mem_append.mpr ⟨reads, List.forall_mem_singleton.mpr ⟨behind, here⟩⟩
  · refine ⟨⟨⟨by dsimp only; omega, by dsimp only; omega⟩, ?_, ?_⟩, by dsimp only; omega⟩
    · rw [← result, urlDecode_cons_of_ne isPercent, List.append_assoc]
      rfl
    · exact List.forall_mem_append.mpr ⟨reads, List.forall_mem_singleton.mpr ⟨behind, here⟩⟩

/-- The loop ends at the end of the text. -/
theorem decodeLoop
    {fuel : Nat}
    (decodes : DecodesUpTo memory first last s)
    (enough : last - s.it < fuel) :
    ∃ final, decodeLoop memory last fuel s = some final ∧
      DecodesUpTo memory first last final ∧ final.it = last := by
  induction fuel generalizing s with
  | zero => omega
  | succ fuel inductionHypothesis =>
      unfold Http.decodeLoop
      split_ifs with atEnd
      · exact ⟨s, rfl, decodes, atEnd⟩
      · obtain ⟨next, progress⟩ := decodes.decodeRound atEnd
        have within := decodes.inside
        exact inductionHypothesis next (by omega)

end DecodesUpTo

/-- In the memory, a text is decoded as `urlDecode` says, and only its bytes are read. -/
theorem urlDecodeIn_eq (memory : Memory) (first size : Nat) :
    ∃ final, urlDecodeIn memory first size = some final ∧
      final.result = urlDecode (memory.load first size) ∧
        ∀ place ∈ final.reads, first ≤ place ∧ place < first + size := by
  have initially : DecodesUpTo memory first (first + size) ⟨first, [], []⟩ :=
    ⟨⟨Nat.le_refl _, Nat.le_add_right _ _⟩, rfl, nofun⟩
  have enough : first + size - first < size + 1 := by omega
  obtain ⟨final, stops, ⟨-, result, reads⟩, atEnd⟩ := initially.decodeLoop enough
  refine ⟨final, stops, ?_, reads⟩
  rw [atEnd, Nat.sub_self, Memory.load_zero, Nat.add_sub_cancel_left] at result
  exact (List.append_nil _).symm.trans result

/-- Every valid encoding in the memory is decoded to its text, and only its bytes are read. -/
theorem urlDecodeIn_of_encodes
    {memory : Memory} {first : Nat} {encoded text : Bytes}
    (holds : memory.load first encoded.length = encoded)
    (encodes : Encodes encoded text) :
    ∃ final, urlDecodeIn memory first encoded.length = some final ∧ final.result = text ∧
      ∀ place ∈ final.reads, first ≤ place ∧ place < first + encoded.length := by
  obtain ⟨final, stops, result, reads⟩ := urlDecodeIn_eq memory first encoded.length
  refine ⟨final, stops, ?_, reads⟩
  rw [result, holds, encodes.urlDecode_eq]

/-- `%41+b`, which encodes `A b`. -/
theorem urlDecodeIn_of_encodes_letters :
    (Memory.store (fun _ => 0) 1000 [37, 52, 49, 43, 98]).load 1000 5 = [37, 52, 49, 43, 98] ∧
      Encodes [37, 52, 49, 43, 98] [65, 32, 98] ∧
        ∃ final, urlDecodeIn (Memory.store (fun _ => 0) 1000 [37, 52, 49, 43, 98]) 1000 5 =
            some final ∧ final.result = [65, 32, 98] ∧
          ∀ place ∈ final.reads, 1000 ≤ place ∧ place < 1000 + 5 := by
  have holds : (Memory.store (fun _ => 0) 1000 [37, 52, 49, 43, 98]).load 1000 5 =
      [37, 52, 49, 43, 98] := by decide
  have encodes : Encodes [37, 52, 49, 43, 98] [65, 32, 98] :=
    .escaped (Or.inl (by decide)) (Or.inl (by decide))
      (.plus (.literal (by decide) (by decide) .nil))
  exact ⟨holds, encodes, urlDecodeIn_of_encodes holds encodes⟩

/-! ## What `url_encode` writes -/

/-- The characters that are written as they are. -/
def isUnreserved (ch : UInt8) : Bool :=
  isAlnum ch || ch == 45 || ch == 95 || ch == 46 || ch == 126

/-- The text consists of unreserved characters and of `%` with two digits after it. -/
inductive PercentEncoded : Bytes → Prop
  | nil : PercentEncoded []
  | unreserved {ch : UInt8} {rest : Bytes} (isUnreserved : isUnreserved ch = true)
      (encoded : PercentEncoded rest) :
      PercentEncoded (ch :: rest)
  | escaped {high low : UInt8} {rest : Bytes} (isHigh : Ip.isXDigit high = true)
      (isLow : Ip.isXDigit low = true) (encoded : PercentEncoded rest) :
      PercentEncoded (37 :: high :: low :: rest)

/-- The text is decoded from its encoding, which has only the characters that it may
have. -/
structure RoundTrips (url : Bytes) : Prop where
  decoded : urlDecode (urlEncode url) = url
  percentEncoded : PercentEncoded (urlEncode url)

/-- What `url_encode` writes before the byte 0. -/
def encodedPart (url : Bytes) : Bytes :=
  url.flatMap encodeByte

theorem encodedPart_cons (ch : UInt8) (rest : Bytes) :
    encodedPart (ch :: rest) = encodeByte ch ++ encodedPart rest :=
  List.flatMap_cons

theorem isHexDigit_toHex
    {digit : Nat} {code : UInt8}
    (isDigit : (code &&& 15).toNat = digit) :
    IsHexDigit digit (toHex code) := by
  have all : ∀ digit < 16, toHex (UInt8.ofNat digit) =
      UInt8.ofNat (if digit < 10 then 48 + digit else 87 + digit) := by decide
  have small : digit < 16 := by
    rw [← isDigit, UInt8.toNat_and]
    exact Nat.lt_succ_of_le Nat.and_le_right
  have masked : toHex code = toHex (UInt8.ofNat digit) := by
    rw [← isDigit, UInt8.ofNat_toNat, toHex, toHex, UInt8.and_assoc, UInt8.and_self]
  exact Or.inl (masked.trans (all digit small))

theorem isXDigit_of_isHexDigit
    {digit : Nat} {ch : UInt8}
    (small : digit < 16)
    (isDigit : IsHexDigit digit ch) :
    Ip.isXDigit ch = true := by
  have lower : ∀ digit < 16,
      Ip.isXDigit (UInt8.ofNat (if digit < 10 then 48 + digit else 87 + digit)) = true := by decide
  have upper : ∀ digit < 16,
      Ip.isXDigit (UInt8.ofNat (if digit < 10 then 48 + digit else 55 + digit)) = true := by decide
  obtain rfl | rfl := isDigit
  · exact lower digit small
  · exact upper digit small

/-- A byte is written as it is, or as `%` and its two digits. -/
theorem encodeByte_cases (ch : UInt8) :
    (encodeByte ch = [ch] ∧ isUnreserved ch = true) ∨
    ∃ high low, encodeByte ch = [37, high, low] ∧ IsHexDigit (ch.toNat / 16) high ∧
      IsHexDigit (ch.toNat % 16) low := by
  unfold encodeByte
  split_ifs with literal
  · exact Or.inl ⟨rfl, literal⟩
  · refine Or.inr ⟨_, _, rfl, isHexDigit_toHex ?_, isHexDigit_toHex ?_⟩
    · have bound := ch.toNat_lt
      have shifted : (ch >>> 4).toNat = ch.toNat / 16 := Nat.shiftRight_eq_div_pow ch.toNat 4
      rw [UInt8.toNat_and, shifted]
      refine (Nat.and_two_pow_sub_one_eq_mod _ 4).trans ?_
      exact Nat.mod_eq_of_lt (by omega)
    · rw [UInt8.and_assoc, UInt8.and_self, UInt8.toNat_and]
      exact Nat.and_two_pow_sub_one_eq_mod _ 4

theorem encodes_encodedPart (url : Bytes) : Encodes (encodedPart url) url := by
  induction url with
  | nil => exact .nil
  | cons ch rest inductionHypothesis =>
      rw [encodedPart_cons]
      obtain ⟨same, literal⟩ | ⟨high, low, same, isHigh, isLow⟩ := encodeByte_cases ch
      · rw [same]
        refine .literal ?_ ?_ inductionHypothesis
        · rintro rfl
          exact absurd literal (by decide)
        · rintro rfl
          exact absurd literal (by decide)
      · rw [same]
        exact .escaped isHigh isLow inductionHypothesis

theorem percentEncoded_encodedPart (url : Bytes) : PercentEncoded (encodedPart url) := by
  induction url with
  | nil => exact .nil
  | cons ch rest inductionHypothesis =>
      rw [encodedPart_cons]
      obtain ⟨same, literal⟩ | ⟨high, low, same, isHigh, isLow⟩ := encodeByte_cases ch
      · rw [same]
        exact .unreserved literal inductionHypothesis
      · have bound := ch.toNat_lt
        rw [same]
        exact .escaped (isXDigit_of_isHexDigit (by omega) isHigh)
          (isXDigit_of_isHexDigit (by omega) isLow) inductionHypothesis

/-- Encodings are put one after the other. -/
theorem Encodes.append
    {first second firstText secondText : Bytes}
    (encodesFirst : Encodes first firstText)
    (encodesSecond : Encodes second secondText) :
    Encodes (first ++ second) (firstText ++ secondText) := by
  induction encodesFirst with
  | nil => exact encodesSecond
  | literal notPercent notPlus _ inductionHypothesis =>
      exact .literal notPercent notPlus inductionHypothesis
  | plus _ inductionHypothesis => exact .plus inductionHypothesis
  | escaped isHigh isLow _ inductionHypothesis => exact .escaped isHigh isLow inductionHypothesis

/-- The byte 0 that `url_encode` puts at the end is decoded with the text. -/
theorem urlDecode_urlEncode (url : Bytes) : urlDecode (urlEncode url) = url ++ [0] := by
  have terminator : Encodes [0] [0] := .literal (by decide) (by decide) .nil
  exact ((encodes_encodedPart url).append terminator).urlDecode_eq

theorem PercentEncoded.ne_zero
    {text : Bytes} {ch : UInt8}
    (encoded : PercentEncoded text)
    (present : ch ∈ text) :
    ch ≠ 0 := by
  rintro rfl
  induction encoded with
  | nil => cases present
  | unreserved isUnreserved _ inductionHypothesis =>
      rcases List.mem_cons.mp present with rfl | later
      · exact absurd isUnreserved (by decide)
      · exact inductionHypothesis later
  | escaped isHigh isLow _ inductionHypothesis =>
      simp only [List.mem_cons] at present
      rcases present with percent | rfl | rfl | later
      · exact absurd percent (by decide)
      · exact absurd isHigh (by decide)
      · exact absurd isLow (by decide)
      · exact inductionHypothesis later

theorem not_percentEncoded_urlEncode (url : Bytes) : ¬PercentEncoded (urlEncode url) := by
  intro encoded
  have terminator : 0 ∈ urlEncode url := List.mem_append_right _ (List.mem_singleton_self 0)
  exact encoded.ne_zero terminator rfl

/-- No text comes back from its encoding, and no encoding has only the characters that it
may have. -/
theorem urlEncode_terminated (url : Bytes) :
    urlDecode (urlEncode url) ≠ url ∧ ¬PercentEncoded (urlEncode url) := by
  refine ⟨?_, not_percentEncoded_urlEncode url⟩
  rw [urlDecode_urlEncode, Ne, List.append_right_eq_self]
  exact List.cons_ne_nil 0 []

/-- The empty text. -/
theorem not_roundTrips_nil : ¬RoundTrips [] := fun roundTrips =>
  absurd roundTrips.decoded (by decide)

/-! ## Malformed escapes -/

/-- The escapes of percent-encoding, with `+` for a space outside of them. -/
def percent : Escapes.Code UInt8 UInt8 where
  mark := 37
  digit ch := if Ip.isXDigit ch then some (digitValue ch) else none
  join high low := UInt8.ofNat (16 * high + low)
  plain := decodeLiteral
  digit_mark := rfl

example : percent.decode [37, 52, 49, 37, 122, 37, 43] = [65, 37, 122, 37, 32] := by decide

/-- Every `%` has two digits after it. -/
def EscapesComplete (url : Bytes) : Prop :=
  ∀ rest, 37 :: rest <:+ url →
    ∃ high low after, rest = high :: low :: after ∧ Ip.isXDigit high = true ∧
      Ip.isXDigit low = true

theorem percent_digit_eq_some {ch : UInt8} {digit : Nat} :
    percent.digit ch = some digit ↔ Ip.isXDigit ch = true ∧ digitValue ch = digit := by
  simp only [percent, Option.ite_none_right_eq_some, Option.some.injEq]

theorem escapesComplete_iff (url : Bytes) : EscapesComplete url ↔ percent.Complete url := by
  refine forall_congr' fun rest => imp_congr_right fun _ => ?_
  constructor
  · rintro ⟨high, low, after, rfl, isHigh, isLow⟩
    exact ⟨_, Escapes.Code.pair_eq_some.mpr ⟨_, _, percent_digit_eq_some.mpr ⟨isHigh, rfl⟩,
      percent_digit_eq_some.mpr ⟨isLow, rfl⟩, rfl⟩⟩
  · rintro ⟨value, found⟩
    match rest, found with
    | high :: low :: after, found =>
        obtain ⟨highDigit, lowDigit, isHigh, isLow, -⟩ := Escapes.Code.pair_eq_some.mp found
        exact ⟨high, low, after, rfl, (percent_digit_eq_some.mp isHigh).1,
          (percent_digit_eq_some.mp isLow).1⟩

theorem fromHex_of_isXDigit
    {ch : UInt8}
    (isDigit : Ip.isXDigit ch = true) :
    fromHex ch = UInt8.ofNat (digitValue ch) :=
  forall_byte (P := fun ch => Ip.isXDigit ch = true → fromHex ch = UInt8.ofNat (digitValue ch))
    (by decide +kernel) ch isDigit

/-- Two digits are joined as the reference decoder joins them. -/
theorem fromHex_of_pair
    {high low value : UInt8}
    (isPair : percent.pair high low = some value) :
    fromHex high <<< 4 ||| fromHex low = value := by
  have join : ∀ high < 16, ∀ low < 16,
      UInt8.ofNat high <<< 4 ||| UInt8.ofNat low = UInt8.ofNat (16 * high + low) := by decide
  obtain ⟨highDigit, lowDigit, readHigh, readLow, rfl⟩ := Escapes.Code.pair_eq_some.mp isPair
  obtain ⟨isHigh, valueHigh⟩ := percent_digit_eq_some.mp readHigh
  obtain ⟨isLow, valueLow⟩ := percent_digit_eq_some.mp readLow
  rw [fromHex_of_isXDigit isHigh, fromHex_of_isXDigit isLow, ← valueHigh, ← valueLow]
  exact join _ (Ip.digitValue_lt_of_isXDigit isHigh) _ (Ip.digitValue_lt_of_isXDigit isLow)

/-- Where two bytes after a `%` are joined to a `%`, neither is one. -/
theorem ne_percent_of_join
    {high low : UInt8}
    (joined : fromHex high <<< 4 ||| fromHex low = 37) :
    high ≠ 37 ∧ low ≠ 37 := by
  constructor
  · rintro rfl
    have bits : (fromHex 37 <<< 4).toNat ≤ (fromHex 37 <<< 4 ||| fromHex low).toNat := by
      rw [UInt8.toNat_or]
      exact Nat.left_le_or
    rw [joined] at bits
    exact absurd bits (by decide)
  · rintro rfl
    have bits : (fromHex 37).toNat ≤ (fromHex high <<< 4 ||| fromHex 37).toNat := by
      rw [UInt8.toNat_or]
      exact Nat.right_le_or
    rw [joined] at bits
    exact absurd bits (by decide)

theorem decode_percent_of_ne {ch : UInt8} (notPercent : ch ≠ 37) (rest : Bytes) :
    percent.decode (ch :: rest) = decodeLiteral ch :: percent.decode rest :=
  Escapes.Code.decode_plain fun isMark => absurd isMark notPercent

theorem decode_percent_of_pair
    {high low value : UInt8}
    (isPair : percent.pair high low = some value)
    (rest : Bytes) :
    percent.decode (37 :: high :: low :: rest) = value :: percent.decode rest :=
  Escapes.Code.decode_escape isPair rest

/-- No text is decoded to more bytes than the reference decoder makes of it. -/
theorem length_urlDecode_le (url : Bytes) :
    (urlDecode url).length ≤ (percent.decode url).length := by
  induction url using urlDecode.induct with
  | case1 => exact Nat.le_refl _
  | case2 => exact Nat.zero_le _
  | case3 ch notPercent =>
      rw [urlDecode_cons_of_ne notPercent, decode_percent_of_ne notPercent]
      exact Nat.le_refl _
  | case4 one inductionHypothesis =>
      rw [urlDecode, if_pos rfl, Escapes.Code.decode_plain fun _ => rfl, List.length_cons]
      omega
  | case5 ch one notPercent inductionHypothesis =>
      rw [urlDecode_cons_of_ne notPercent, decode_percent_of_ne notPercent]
      exact Nat.succ_le_succ inductionHypothesis
  | case6 one two rest inductionHypothesis =>
      rw [urlDecode, if_pos rfl]
      cases isPair : percent.pair one two with
      | some value =>
          rw [decode_percent_of_pair isPair]
          exact Nat.succ_le_succ inductionHypothesis
      | none =>
          have none : percent.completion (one :: two :: rest) = none := isPair
          rw [Escapes.Code.decode_plain fun _ => none]
          have shorter := Escapes.Code.length_decode_le_cons_cons percent one two rest
          exact Nat.succ_le_succ (inductionHypothesis.trans shorter)
  | case7 ch one two rest notPercent inductionHypothesis =>
      rw [urlDecode_cons_of_ne notPercent, decode_percent_of_ne notPercent]
      exact Nat.succ_le_succ inductionHypothesis

/-- A byte other than `%` makes no difference. -/
theorem urlDecode_eq_decode_cons_iff {ch : UInt8} (notPercent : ch ≠ 37) (rest : Bytes) :
    urlDecode (ch :: rest) = percent.decode (ch :: rest) ↔
      urlDecode rest = percent.decode rest := by
  rw [urlDecode_cons_of_ne notPercent, decode_percent_of_ne notPercent, List.cons.injEq]
  exact and_iff_right rfl

theorem urlDecode_eq_decode_iff_complete (url : Bytes) :
    urlDecode url = percent.decode url ↔ percent.Complete url := by
  induction url using urlDecode.induct with
  | case1 => exact iff_of_true rfl Escapes.Code.complete_nil
  | case2 => exact iff_of_false (by decide) (Escapes.Code.not_complete_mark_cons rfl)
  | case3 ch notPercent =>
      rw [urlDecode_eq_decode_cons_iff notPercent, Escapes.Code.complete_cons_of_ne notPercent]
      exact iff_of_true rfl Escapes.Code.complete_nil
  | case4 one _ =>
      refine iff_of_false (fun same => ?_) (Escapes.Code.not_complete_mark_cons rfl)
      have lengths := congrArg List.length same
      have short := length_urlDecode_le [one]
      rw [urlDecode, if_pos rfl, Escapes.Code.decode_plain fun _ => rfl, List.length_cons]
        at lengths
      omega
  | case5 ch one notPercent inductionHypothesis =>
      rw [urlDecode_eq_decode_cons_iff notPercent, Escapes.Code.complete_cons_of_ne notPercent]
      exact inductionHypothesis
  | case6 one two rest inductionHypothesis =>
      rw [urlDecode, if_pos rfl]
      cases isPair : percent.pair one two with
      | some value =>
          rw [decode_percent_of_pair isPair, fromHex_of_pair isPair, List.cons.injEq,
            inductionHypothesis, ← Escapes.Code.complete_escape isPair rest]
          exact and_iff_right rfl
      | none =>
          have none : percent.completion (one :: two :: rest) = none := isPair
          refine iff_of_false (fun same => ?_) (Escapes.Code.not_complete_mark_cons none)
          -- a `%` for the `%`: the two bytes after it are literals that `url_decode` leaves out
          rw [Escapes.Code.decode_plain fun _ => none] at same
          obtain ⟨joined, rests⟩ := List.cons.inj same
          obtain ⟨notOne, notTwo⟩ := ne_percent_of_join joined
          have lengths := congrArg List.length rests
          have short := length_urlDecode_le rest
          rw [decode_percent_of_ne notOne, decode_percent_of_ne notTwo, List.length_cons,
            List.length_cons] at lengths
          omega
  | case7 ch one two rest notPercent inductionHypothesis =>
      rw [urlDecode_eq_decode_cons_iff notPercent, Escapes.Code.complete_cons_of_ne notPercent]
      exact inductionHypothesis

/-- A text is decoded as the reference decoder does exactly where every `%` has two digits
after it. -/
theorem urlDecode_eq_decode_iff (url : Bytes) :
    urlDecode url = percent.decode url ↔ EscapesComplete url :=
  (urlDecode_eq_decode_iff_complete url).trans (escapesComplete_iff url).symm

/-- `%zz` is decoded to `3`. -/
theorem urlDecode_ne_decode_letters :
    urlDecode [37, 122, 122] ≠ percent.decode [37, 122, 122] := by decide

end Http
end Cppio
