import Cppio.Library.AddressText
import Cppio.Library.Runs

/-!
# The canonical text of eight words

Shortest numerals in base sixteen with one kind of digit between single colons,
and two colons in place of the first of the longest runs of zero words, if two
zero words stand in a row anywhere.  Words have one canonical text.
-/

namespace AddressText

variable {Symbol : Type}

/-- The symbols of the digits of a shortest numeral of the word. -/
def IsNumeral (lower : Nat → Symbol) (word : Nat) (field : List Symbol) : Prop :=
  ∃ digits, Numeral.IsShortest 16 digits ∧ Numeral.read 16 digits = word ∧
    field = digits.map lower

/-- The canonical text of the words. -/
inductive Canonical (colon : Symbol) (lower : Nat → Symbol) (words : List Nat) :
    List Symbol → Prop
  | plain {fields : List (List Symbol)}
      (single : ∀ index length, Runs.IsRun 0 words index length → length ≤ 1)
      (numerals : List.Forall₂ (IsNumeral lower) words fields) :
      Canonical colon lower words ([colon].intercalate fields)
  | compressed {before after : List Nat} {length : Nat} {left right : List (List Symbol)}
      (split : words = before ++ (List.replicate length 0 ++ after))
      (several : 2 ≤ length)
      (first : Runs.LeftmostLongest 0 words before.length length)
      (numeralsLeft : List.Forall₂ (IsNumeral lower) before left)
      (numeralsRight : List.Forall₂ (IsNumeral lower) after right) :
      Canonical colon lower words
        ([colon].intercalate left ++ colon :: colon :: [colon].intercalate right)

variable {colon : Symbol} {lower : Nat → Symbol}

theorem isNumeral_write (lower : Nat → Symbol) (word : Nat) :
    IsNumeral lower word ((Numeral.write 16 word).map lower) :=
  ⟨_, Numeral.isShortest_write (by decide) word, Numeral.read_write 16 word, rfl⟩

theorem IsNumeral.eq_write
    {word : Nat} {field : List Symbol}
    (isNumeral : IsNumeral lower word field) :
    field = (Numeral.write 16 word).map lower := by
  obtain ⟨digits, shortest, rfl, rfl⟩ := isNumeral
  rw [← shortest.eq_write (by decide)]

theorem numerals_write (lower : Nat → Symbol) (words : List Nat) :
    List.Forall₂ (IsNumeral lower) words
      (words.map fun word => (Numeral.write 16 word).map lower) := by
  induction words with
  | nil => exact .nil
  | cons word words inductionHypothesis =>
      exact .cons (isNumeral_write lower word) inductionHypothesis

theorem eq_write_of_numerals
    {words : List Nat} {fields : List (List Symbol)}
    (numerals : List.Forall₂ (IsNumeral lower) words fields) :
    fields = words.map fun word => (Numeral.write 16 word).map lower := by
  induction numerals with
  | nil => rfl
  | cons isNumeral _ inductionHypothesis =>
      rw [List.map_cons, inductionHypothesis, isNumeral.eq_write]

/-- Words have one canonical text. -/
theorem Canonical.unique
    {words : List Nat} {first second : List Symbol}
    (isFirst : Canonical colon lower words first)
    (isSecond : Canonical colon lower words second) :
    first = second := by
  cases isFirst with
  | plain single numerals =>
      cases isSecond with
      | plain _ numerals' => rw [eq_write_of_numerals numerals, eq_write_of_numerals numerals']
      | compressed _ several isFirst _ _ =>
          exact absurd (single _ _ isFirst.isRun) (by omega)
  | @compressed before after length left right split several isFirst numeralsLeft numeralsRight =>
      cases isSecond with
      | plain single _ => exact absurd (single _ _ isFirst.isRun) (by omega)
      | @compressed before' after' length' _ _ split' _ isFirst' numeralsLeft' numeralsRight' =>
          obtain ⟨sameIndex, rfl⟩ := isFirst.unique isFirst' (by omega)
          obtain ⟨rfl, rest⟩ := List.append_inj (split.symm.trans split') sameIndex
          obtain rfl := List.append_cancel_left rest
          rw [eq_write_of_numerals numeralsLeft, eq_write_of_numerals numeralsLeft',
            eq_write_of_numerals numeralsRight, eq_write_of_numerals numeralsRight']

end AddressText
