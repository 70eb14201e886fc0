import Cppio.Library.CanonicalAddress
import Cppio.Network.AddressPrinting

/-!
# Printed addresses are canonical

The first loop of `v6::to_string` goes from one run of zero words to the word
behind the next.  It keeps a run only where it is longer than those before it,
which makes it the first of the longest, and the second loop leaves out this run
alone.
-/

namespace Cppio
namespace Ip
namespace V6

open AddressText (Canonical)

/-- The word at which the inner loop stops is not zero. -/
theorem getElem?_skipZeros_ne (words : List UInt16) (i : Nat) :
    words[skipZeros words i]? ≠ some 0 := by
  have stops := Runs.getElem?_length_takeWhile_ne 0 (words.drop i)
  rwa [List.getElem?_drop] at stops

/-- The numerals that are printed. -/
theorem numerals_hexWord (words : List UInt16) :
    List.Forall₂ (AddressText.IsNumeral digitByte) (words.map UInt16.toNat)
      (words.map hexWord) := by
  have numerals := AddressText.numerals_write digitByte (words.map UInt16.toNat)
  rw [List.map_map] at numerals
  exact numerals

theorem leftmostLongest_findZeros
    {words : List UInt16} {fuel i : Nat} {zeros : ZeroRun}
    (found : Runs.FoundBefore 0 words i zeros.index zeros.length)
    (enough : words.length ≤ i + fuel) :
    Runs.LeftmostLongest 0 words (findZeros words fuel i zeros).index
      (findZeros words fuel i zeros).length := by
  induction fuel generalizing i zeros with
  | zero => exact found.leftmostLongest enough
  | succ fuel inductionHypothesis =>
      unfold findZeros
      by_cases inside : i < words.length
      · rw [if_pos inside]
        have here : words[i]? = some (words.getD i 0) := by
          rw [List.getElem?_eq_getElem inside]
          simp [inside]
        by_cases isZero : words.getD i 0 = 0
        · have behind : i ≤ skipZeros words i := Nat.le_add_right _ _
          have next := found.run (isZeroRun_skipZeros inside.le) behind
            (getElem?_skipZeros_ne words i)
          rw [if_pos isZero]
          dsimp only
          apply inductionHypothesis
          · split_ifs at next ⊢ with longer
            · exact next
            · exact next
          · omega
        · have notHere : words[i]? ≠ some 0 := by
            rw [here]
            exact fun same => isZero (Option.some.inj same)
          rw [if_neg isZero]
          exact inductionHypothesis (found.skip notHere) (by omega)
      · rw [if_neg inside]
        exact found.leftmostLongest (by omega)

/-- What is printed between the brackets is the canonical text of the words. -/
theorem canonical_print (ip : V6) :
    Canonical 58 digitByte (ip.words.map UInt16.toNat) ip.print := by
  have eight := ip.eight
  have first : Runs.LeftmostLongest 0 ip.words (findZeros ip.words 8 0 ⟨0, 0⟩).index
      (findZeros ip.words 8 0 ⟨0, 0⟩).length :=
    leftmostLongest_findZeros (Runs.foundBefore_zero 0 ip.words) (by omega)
  unfold print
  generalize findZeros ip.words 8 0 ⟨0, 0⟩ = zeros at first
  have fits := first.isRun.1
  have firstNumber : Runs.LeftmostLongest 0 (ip.words.map UInt16.toNat) zeros.index zeros.length :=
    Runs.leftmostLongest_map (fun _ _ same => UInt16.toNat_inj.mp same) first
  by_cases long : zeros.length > 1
  · have whole : ip.words.map UInt16.toNat = (ip.words.take zeros.index).map UInt16.toNat ++
        (List.replicate zeros.length 0 ++
          (ip.words.drop (zeros.index + zeros.length)).map UInt16.toNat) := by
      have split := congrArg (List.map UInt16.toNat) first.isRun.split
      rw [List.map_append, List.map_append, List.map_replicate] at split
      exact split
    have index : ((ip.words.take zeros.index).map UInt16.toNat).length = zeros.index := by
      rw [List.length_map, List.length_take]
      omega
    rw [printWords_compressed eight first.isRun long (Nat.zero_le _) (Nat.le_refl _), Nat.sub_zero,
      List.drop_zero]
    exact .compressed whole long (index.symm ▸ firstNumber) (numerals_hexWord _)
      (numerals_hexWord _)
  · rw [printWords_plain eight (Or.inl (by omega)) (Nat.le_refl _), List.drop_zero]
    refine .plain (fun index length isRun => ?_) (numerals_hexWord _)
    have bound := firstNumber.longest isRun
    omega

/-- `to_string` writes the canonical text of the words between brackets. -/
theorem toString_canonical (ip : V6) :
    ∃ text, ip.toString = 91 :: (text ++ [93]) ∧
      Canonical 58 digitByte (ip.words.map UInt16.toNat) text :=
  ⟨ip.print, rfl, ip.canonical_print⟩

example : toString ⟨[0x2001, 0xdb8, 0, 0, 1, 0, 0, 0xA], rfl⟩ =
    [91, 50, 48, 48, 49, 58, 100, 98, 56, 58, 58, 49, 58, 48, 58, 48, 58, 97, 93] := by
  decide

end V6
end Ip
end Cppio
