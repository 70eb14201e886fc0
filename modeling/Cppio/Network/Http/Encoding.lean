import Cppio.Network.Http.StringView

/-!
# Percent-encoding

`url_encode` and `url_decode`.  A `char` is a byte here; the shifts and the
disjunction of `url_decode` are taken in `int` and cut back to a `char`, which
keeps the eight low bits that the byte operations compute.
-/

namespace Cppio
namespace Http

/-- `isdigit` in the C locale. -/
def isDigit (ch : UInt8) : Bool := 48 ≤ ch && ch ≤ 57

/-- `isalnum` in the C locale. -/
def isAlnum (ch : UInt8) : Bool :=
  isDigit ch || (65 ≤ ch && ch ≤ 90) || (97 ≤ ch && ch ≤ 122)

/-- `tolower` in the C locale. -/
def toLower (ch : UInt8) : UInt8 :=
  if 65 ≤ ch && ch ≤ 90 then ch + 32 else ch

/-- `details::from_hex`. -/
def fromHex (ch : UInt8) : UInt8 :=
  if isDigit ch then ch - 48 else toLower ch - 97 + 10

/-- `details::to_hex`. -/
def toHex (code : UInt8) : UInt8 :=
  let digit := code &&& 15
  if digit < 10 then 48 + digit else 87 + digit

/-- The bytes that `url_encode` writes for one byte. -/
def encodeByte (ch : UInt8) : Bytes :=
  if isAlnum ch || ch == 45 || ch == 95 || ch == 46 || ch == 126 then [ch]
  else [37, toHex (ch >>> 4), toHex (ch &&& 15)]

/-- `url_encode`, with the byte 0 that it puts at the end. -/
def urlEncode (url : Bytes) : Bytes :=
  url.flatMap encodeByte ++ [0]

/-- What `url_decode` writes for a byte other than `%`. -/
def decodeLiteral (ch : UInt8) : UInt8 :=
  if ch = 43 then 32 else ch

/-- `url_decode`.  A `%` with fewer than two bytes after it is dropped. -/
def urlDecode : Bytes → Bytes
  | [] => []
  | [ch] => if ch = 37 then [] else [decodeLiteral ch]
  | [ch, one] =>
      if ch = 37 then urlDecode [one] else decodeLiteral ch :: urlDecode [one]
  | ch :: one :: two :: rest =>
      if ch = 37 then (fromHex one <<< 4 ||| fromHex two) :: urlDecode rest
      else decodeLiteral ch :: urlDecode (one :: two :: rest)

example : urlDecode (urlEncode [97, 32, 255]) = [97, 32, 255, 0] := by decide

/-- A property of all bytes is checked value by value. -/
theorem forall_byte
    {P : UInt8 → Prop}
    (all : ∀ number < 256, P (UInt8.ofNat number))
    (ch : UInt8) :
    P ch := by
  have here := all ch.toNat ch.toNat_lt
  rwa [UInt8.ofNat_toNat] at here

/-! ## What is written -/

/-- The bytes that `url_encode` writes. -/
def isEncoded (byte : UInt8) : Bool :=
  isAlnum byte || byte == 45 || byte == 95 || byte == 46 || byte == 126 || byte == 37 ||
    byte == 0

theorem isEncoded_toHex (code : UInt8) : isEncoded (toHex code) = true := by
  have digits : ∀ digit < 16, isEncoded (toHex (UInt8.ofNat digit)) = true := by decide
  have small : (code &&& 15).toNat < 16 := by
    rw [UInt8.toNat_and]
    exact Nat.lt_succ_of_le Nat.and_le_right
  have same : toHex (UInt8.ofNat (code &&& 15).toNat) = toHex code := by
    rw [UInt8.ofNat_toNat, toHex, toHex, UInt8.and_assoc, UInt8.and_self]
  rw [← same]
  exact digits _ small

theorem isEncoded_of_mem_encodeByte
    {ch byte : UInt8}
    (present : byte ∈ encodeByte ch) :
    isEncoded byte = true := by
  unfold encodeByte at present
  split_ifs at present with literal
  · obtain rfl := List.mem_singleton.mp present
    unfold isEncoded
    simp only [literal, Bool.true_or]
  · simp only [List.mem_cons, List.not_mem_nil, or_false] at present
    rcases present with rfl | rfl | rfl
    · decide
    · exact isEncoded_toHex _
    · exact isEncoded_toHex _

theorem isEncoded_of_mem_urlEncode
    {url : Bytes} {byte : UInt8}
    (present : byte ∈ urlEncode url) :
    isEncoded byte = true := by
  rcases List.mem_append.mp present with inside | last
  · obtain ⟨ch, -, here⟩ := List.mem_flatMap.mp inside
    exact isEncoded_of_mem_encodeByte here
  · obtain rfl := List.mem_singleton.mp last
    decide

/-- Encoding lengthens every text, if only by its terminator. -/
theorem length_lt_urlEncode (url : Bytes) : url.length < (urlEncode url).length := by
  unfold urlEncode
  rw [List.length_append, List.length_singleton]
  apply Nat.lt_succ_of_le
  induction url with
  | nil => exact Nat.le_refl _
  | cons ch rest inductionHypothesis =>
      have one : 1 ≤ (encodeByte ch).length := by
        unfold encodeByte
        split_ifs <;> simp
      rw [List.flatMap_cons, List.length_append, List.length_cons]
      omega

/-! ## Valid encodings -/

/-- The byte is the digit of this value in base 16, in either case. -/
def IsHexDigit (digit : Nat) (ch : UInt8) : Prop :=
  ch = UInt8.ofNat (if digit < 10 then 48 + digit else 87 + digit) ∨
    ch = UInt8.ofNat (if digit < 10 then 48 + digit else 55 + digit)

/-- The first text is a percent-encoding of the second. -/
inductive Encodes : Bytes → Bytes → Prop
  | nil : Encodes [] []
  | literal {encoded text : Bytes} {ch : UInt8} (notPercent : ch ≠ 37) (notPlus : ch ≠ 43)
      (rest : Encodes encoded text) :
      Encodes (ch :: encoded) (ch :: text)
  | plus {encoded text : Bytes} (rest : Encodes encoded text) :
      Encodes (43 :: encoded) (32 :: text)
  | escaped {encoded text : Bytes} {ch high low : UInt8}
      (isHigh : IsHexDigit (ch.toNat / 16) high) (isLow : IsHexDigit (ch.toNat % 16) low)
      (rest : Encodes encoded text) :
      Encodes (37 :: high :: low :: encoded) (ch :: text)

theorem fromHex_of_isHexDigit
    {digit : Nat} {ch : UInt8}
    (small : digit < 16)
    (isDigit : IsHexDigit digit ch) :
    fromHex ch = UInt8.ofNat digit := by
  have lower : ∀ digit < 16,
      fromHex (UInt8.ofNat (if digit < 10 then 48 + digit else 87 + digit)) =
        UInt8.ofNat digit := by decide
  have upper : ∀ digit < 16,
      fromHex (UInt8.ofNat (if digit < 10 then 48 + digit else 55 + digit)) =
        UInt8.ofNat digit := by decide
  obtain rfl | rfl := isDigit
  · exact lower digit small
  · exact upper digit small

/-- Two digits give back the byte that they are of. -/
theorem fromHex_pair
    {ch high low : UInt8}
    (isHigh : IsHexDigit (ch.toNat / 16) high)
    (isLow : IsHexDigit (ch.toNat % 16) low) :
    fromHex high <<< 4 ||| fromHex low = ch := by
  have join : ∀ high < 16, ∀ low < 16,
      UInt8.ofNat high <<< 4 ||| UInt8.ofNat low = UInt8.ofNat (16 * high + low) := by decide
  have bound := ch.toNat_lt
  have smallHigh : ch.toNat / 16 < 16 := by omega
  have smallLow : ch.toNat % 16 < 16 := Nat.mod_lt _ (by decide)
  rw [fromHex_of_isHexDigit smallHigh isHigh, fromHex_of_isHexDigit smallLow isLow,
    join _ smallHigh _ smallLow, Nat.div_add_mod, UInt8.ofNat_toNat]

theorem urlDecode_cons_of_ne {ch : UInt8} (notPercent : ch ≠ 37) (rest : Bytes) :
    urlDecode (ch :: rest) = decodeLiteral ch :: urlDecode rest := by
  match rest with
  | [] => simp [urlDecode, notPercent]
  | [one] => simp [urlDecode, notPercent]
  | one :: two :: rest => simp [urlDecode, notPercent]

/-- Every valid encoding of a text is decoded to it. -/
theorem Encodes.urlDecode_eq
    {encoded text : Bytes}
    (encodes : Encodes encoded text) :
    urlDecode encoded = text := by
  induction encodes with
  | nil => rfl
  | @literal encoded text ch notPercent notPlus _ inductionHypothesis =>
      rw [urlDecode_cons_of_ne notPercent, inductionHypothesis, decodeLiteral, if_neg notPlus]
  | plus _ inductionHypothesis =>
      rw [urlDecode_cons_of_ne (by decide), inductionHypothesis]
      rfl
  | escaped isHigh isLow _ inductionHypothesis =>
      rw [urlDecode, if_pos rfl, inductionHypothesis, fromHex_pair isHigh isLow]

end Http
end Cppio
