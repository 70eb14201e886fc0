import Mathlib.Data.List.Infix

/-!
# Texts with escapes

A mark and two digits after it stand for one value; every symbol that is not
part of such an escape stands for a value of its own, a mark included.  The
reference decoder replaces exactly the escapes.
-/

namespace Escapes

/-- How symbols are read. -/
structure Code (Symbol Value : Type) where
  mark : Symbol
  digit : Symbol → Option Nat
  /-- What two digits stand for. -/
  join : Nat → Nat → Value
  /-- What a symbol outside of escapes stands for. -/
  plain : Symbol → Value
  digit_mark : digit mark = none

namespace Code

variable {Symbol Value : Type} (code : Code Symbol Value)

/-- What two symbols after a mark stand for, if they are digits. -/
def pair (high low : Symbol) : Option Value :=
  (code.digit high).bind fun high => (code.digit low).map (code.join high)

/-- What the symbols after a mark complete the escape to. -/
def completion : List Symbol → Option Value
  | high :: low :: _ => code.pair high low
  | _ => none

variable {code}

theorem pair_eq_some
    {high low : Symbol} {value : Value} :
    code.pair high low = some value ↔
      ∃ highDigit lowDigit, code.digit high = some highDigit ∧
        code.digit low = some lowDigit ∧ code.join highDigit lowDigit = value := by
  simp only [pair, Option.bind_eq_some_iff, Option.map_eq_some_iff]
  grind

/-- No mark is part of an escape, except the first symbol. -/
theorem ne_mark_of_pair
    {high low : Symbol} {value : Value}
    (isPair : code.pair high low = some value) :
    high ≠ code.mark ∧ low ≠ code.mark := by
  obtain ⟨highDigit, lowDigit, isHigh, isLow, -⟩ := pair_eq_some.mp isPair
  constructor
  · rintro rfl
    exact absurd (isHigh.symm.trans code.digit_mark) (by simp)
  · rintro rfl
    exact absurd (isLow.symm.trans code.digit_mark) (by simp)

/-! ## Complete texts -/

variable (code)

/-- Every mark is followed by two digits. -/
def Complete (text : List Symbol) : Prop :=
  ∀ rest, code.mark :: rest <:+ text → ∃ value, code.completion rest = some value

variable {code}

theorem complete_nil : code.Complete [] := fun _ isSuffix =>
  absurd (List.suffix_nil.mp isSuffix) (by simp)

theorem complete_cons_of_ne
    {ch : Symbol}
    (notMark : ch ≠ code.mark)
    (text : List Symbol) :
    code.Complete (ch :: text) ↔ code.Complete text := by
  constructor
  · intro complete rest isSuffix
    exact complete rest (isSuffix.trans (List.suffix_cons ch text))
  · intro complete rest isSuffix
    rcases List.suffix_cons_iff.mp isSuffix with whole | inside
    · exact absurd (List.cons.inj whole).1.symm notMark
    · exact complete rest inside

theorem not_complete_mark_cons
    {text : List Symbol}
    (none : code.completion text = none) :
    ¬code.Complete (code.mark :: text) := by
  intro complete
  obtain ⟨value, found⟩ := complete text List.suffix_rfl
  exact absurd (none.symm.trans found) (by simp)

theorem complete_escape
    {high low : Symbol} {value : Value}
    (isPair : code.pair high low = some value)
    (text : List Symbol) :
    code.Complete (code.mark :: high :: low :: text) ↔ code.Complete text := by
  obtain ⟨notHigh, notLow⟩ := ne_mark_of_pair isPair
  have digits : code.Complete (high :: low :: text) ↔ code.Complete text :=
    (complete_cons_of_ne notHigh _).trans (complete_cons_of_ne notLow text)
  refine Iff.trans ?_ digits
  constructor
  · intro complete rest isSuffix
    exact complete rest (isSuffix.trans (List.suffix_cons _ _))
  · intro complete rest isSuffix
    rcases List.suffix_cons_iff.mp isSuffix with whole | inside
    · obtain rfl := (List.cons.inj whole).2
      exact ⟨value, isPair⟩
    · exact complete rest inside

/-! ## The reference decoder -/

variable [DecidableEq Symbol]
variable (code)

/-- The text with its escapes replaced. -/
def decode : List Symbol → List Value
  | [] => []
  | [ch] => [code.plain ch]
  | [ch, one] => [code.plain ch, code.plain one]
  | ch :: high :: low :: rest =>
      if ch = code.mark then
        match code.pair high low with
        | some value => value :: decode rest
        | none => code.plain ch :: decode (high :: low :: rest)
      else code.plain ch :: decode (high :: low :: rest)

variable {code}

theorem decode_escape
    {high low : Symbol} {value : Value}
    (isPair : code.pair high low = some value)
    (text : List Symbol) :
    code.decode (code.mark :: high :: low :: text) = value :: code.decode text := by
  rw [decode, if_pos rfl, isPair]

/-- A symbol that starts no escape stands for itself. -/
theorem decode_plain
    {ch : Symbol} {text : List Symbol}
    (plain : ch = code.mark → code.completion text = none) :
    code.decode (ch :: text) = code.plain ch :: code.decode text := by
  match text with
  | [] => rfl
  | [one] => rfl
  | high :: low :: rest =>
      rw [decode]
      split_ifs with isMark
      · have none : code.pair high low = none := plain isMark
        rw [none]
      · rfl

variable (code) in
/-- Every text starts with an escape or with a symbol that stands for itself. -/
theorem escape_or_plain (ch : Symbol) (text : List Symbol) :
    (∃ high low rest value, ch = code.mark ∧ text = high :: low :: rest ∧
      code.pair high low = some value) ∨
    (ch = code.mark → code.completion text = none) := by
  by_cases isMark : ch = code.mark
  · match text with
    | [] => exact Or.inr fun _ => rfl
    | [one] => exact Or.inr fun _ => rfl
    | high :: low :: rest =>
        cases isPair : code.pair high low with
        | none => exact Or.inr fun _ => isPair
        | some value => exact Or.inl ⟨high, low, rest, value, isMark, rfl, isPair⟩
  · exact Or.inr fun same => absurd same isMark

/-- One symbol more takes away one value at most, where it completes an escape. -/
theorem length_decode_le_cons (ch : Symbol) (text : List Symbol) :
    (code.decode text).length ≤ (code.decode (ch :: text)).length + 1 := by
  obtain ⟨high, low, rest, value, rfl, rfl, isPair⟩ | plain := escape_or_plain code ch text
  · obtain ⟨notHigh, notLow⟩ := ne_mark_of_pair isPair
    rw [decode_escape isPair, decode_plain fun isMark => absurd isMark notHigh,
      decode_plain fun isMark => absurd isMark notLow]
    exact Nat.le_refl _
  · rw [decode_plain plain, List.length_cons]
    omega

variable (code) in
/-- Two symbols more take nothing away. -/
theorem length_decode_le_cons_cons (first second : Symbol) (text : List Symbol) :
    (code.decode text).length ≤ (code.decode (first :: second :: text)).length := by
  obtain ⟨high, low, rest, value, rfl, same, isPair⟩ | plain :=
    escape_or_plain code first (second :: text)
  · obtain ⟨rfl, rfl⟩ := List.cons.inj same
    obtain ⟨-, notLow⟩ := ne_mark_of_pair isPair
    rw [decode_escape isPair, decode_plain fun isMark => absurd isMark notLow]
    exact Nat.le_refl _
  · rw [decode_plain plain, List.length_cons]
    exact length_decode_le_cons second text

end Code

end Escapes
