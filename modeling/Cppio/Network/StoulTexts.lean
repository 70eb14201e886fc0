import Cppio.Network.Ip

/-!
# Which texts `stoul` reads

Blanks, a sign or none, and digits; what follows the digits is left.  The number
must fit into 64 bits, where a minus negates it.  A text that ends with its
digits is open: what follows it in memory may continue the number.
-/

namespace Cppio

open Http (Bytes isDigit)

/-! ## The grammar -/

/-- No sign, a plus or a minus. -/
def IsSign (sign : Bytes) : Prop :=
  sign = [] ∨ sign = [43] ∨ sign = [45]

/-- The number that the digits write. -/
def digitsValue (digits : Bytes) : Nat :=
  Numeral.read 10 (digits.map digitValue)

/-- What a sign and digits stand for in 64 bits. -/
def signedValue (sign digits : Bytes) : Nat :=
  if sign = [45] then (2 ^ 64 - digitsValue digits) % 2 ^ 64 else digitsValue digits

/-- No blank and no sign. -/
def Settles (ch : UInt8) : Prop :=
  isSpace ch = false ∧ ch ≠ 43 ∧ ch ≠ 45

instance (ch : UInt8) : Decidable (Settles ch) :=
  inferInstanceAs (Decidable (_ ∧ _ ∧ _))

/-- After blanks the text has a sign and digits, and no digit follows. -/
structure NumberParts (text sign digits rest : Bytes) : Prop where
  blanks : ∃ blanks, text = blanks ++ (sign ++ (digits ++ rest)) ∧
    ∀ ch ∈ blanks, isSpace ch = true
  isSign : IsSign sign
  /-- All blanks and the sign are taken. -/
  settles : sign = [] → ∀ ch, (digits ++ rest).head? = some ch → Settles ch
  areDigits : ∀ ch ∈ digits, isDigit ch = true
  stops : ∀ ch, rest.head? = some ch → isDigit ch = false

/-- The text starts with a number of 64 bits. -/
def ReadsAs (text : Bytes) (number : Nat) : Prop :=
  ∃ sign digits rest, NumberParts text sign digits rest ∧ digits ≠ [] ∧
    digitsValue digits < 2 ^ 64 ∧ signedValue sign digits = number

/-- The text ends where a number of 64 bits may go on. -/
def OpenNumber (text : Bytes) : Prop :=
  ∃ sign digits, NumberParts text sign digits [] ∧ digitsValue digits < 2 ^ 64

/-! ## What `stoul` finds -/

/-- The sign that `strtoul` skips. -/
def signOf : Bytes → Bytes
  | 45 :: _ => [45]
  | 43 :: _ => [43]
  | _ => []

/-- The sign that `stoul` skips. -/
def stoulSign (text : Bytes) : Bytes :=
  signOf (text.dropWhile isSpace)

/-- The digits that `stoul` reads. -/
def stoulDigits (text : Bytes) : Bytes :=
  (skipSign (text.dropWhile isSpace)).2.takeWhile isDigit

/-- What `stoul` leaves. -/
def stoulRest (text : Bytes) : Bytes :=
  (skipSign (text.dropWhile isSpace)).2.dropWhile isDigit

theorem isSign_signOf (text : Bytes) : IsSign (signOf text) := by
  unfold signOf
  split
  · exact Or.inr (Or.inr rfl)
  · exact Or.inr (Or.inl rfl)
  · exact Or.inl rfl

theorem skipSign_eq (text : Bytes) :
    (skipSign text).1 = decide (signOf text = [45]) ∧ text = signOf text ++ (skipSign text).2 := by
  cases text with
  | nil => exact ⟨rfl, rfl⟩
  | cons ch rest =>
      by_cases minus : ch = 45
      · subst minus
        exact ⟨rfl, rfl⟩
      · by_cases plus : ch = 43
        · subst plus
          exact ⟨rfl, rfl⟩
        · simp [signOf, skipSign, minus, plus]

theorem settles_of_isDigit
    {ch : UInt8}
    (digit : isDigit ch = true) :
    Settles ch := by
  refine ⟨?_, ?_, ?_⟩
  · simp only [isDigit, isSpace, Bool.and_eq_true, decide_eq_true_eq] at digit ⊢
    grind
  · rintro rfl
    exact absurd digit (by decide)
  · rintro rfl
    exact absurd digit (by decide)

/-- Before a text that starts with neither blanks nor a sign, a sign is found. -/
theorem signOf_append
    {sign text : Bytes}
    (isSign : IsSign sign)
    (settles : sign = [] → ∀ ch, text.head? = some ch → Settles ch) :
    signOf (sign ++ text) = sign := by
  obtain rfl | rfl | rfl := isSign
  · cases text with
    | nil => rfl
    | cons ch rest =>
        obtain ⟨-, notPlus, notMinus⟩ := settles rfl ch rfl
        simp [signOf, notPlus, notMinus]
  · rfl
  · rfl

/-- A text whose first byte does not have the property has no byte at its start that has it. -/
theorem span_of_head?
    {property : UInt8 → Bool} {text : Bytes}
    (first : ∀ ch, text.head? = some ch → property ch = false) :
    text.takeWhile property = [] ∧ text.dropWhile property = text := by
  cases text with
  | nil => exact ⟨rfl, rfl⟩
  | cons ch rest =>
      have fails := first ch rfl
      constructor
      · rw [List.takeWhile_cons_of_neg (by simp [fails])]
      · rw [List.dropWhile_cons_of_neg (by simp [fails])]

theorem stoul_eq (text : Bytes) :
    stoul text =
      if stoulDigits text = [] then .error .invalidArgument
      else if digitsValue (stoulDigits text) < 2 ^ 64 then
        .ok (signedValue (stoulSign text) (stoulDigits text))
      else .error .outOfRange := by
  have sign := (skipSign_eq (text.dropWhile isSpace)).1
  unfold stoul signedValue stoulSign stoulDigits digitsValue
  dsimp only
  rw [sign]
  simp only [decide_eq_true_eq]

/-- Every text has the parts that `stoul` finds. -/
theorem numberParts_stoul (text : Bytes) :
    NumberParts text (stoulSign text) (stoulDigits text) (stoulRest text) where
  blanks := by
    refine ⟨text.takeWhile isSpace, ?_, fun ch present => List.mem_takeWhile_imp present⟩
    have sign := (skipSign_eq (text.dropWhile isSpace)).2
    unfold stoulSign stoulDigits stoulRest
    rw [List.takeWhile_append_dropWhile, ← sign, List.takeWhile_append_dropWhile]
  isSign := isSign_signOf _
  settles := by
    intro noSign ch first
    have behind := (skipSign_eq (text.dropWhile isSpace)).2
    unfold stoulSign at noSign
    rw [noSign, List.nil_append] at behind
    unfold stoulDigits stoulRest at first
    rw [List.takeWhile_append_dropWhile, ← behind] at first
    have notSpace := List.head?_dropWhile_not isSpace text
    rw [first] at notSpace
    obtain ⟨rest, whole⟩ := List.head?_eq_some_iff.mp first
    rw [whole] at noSign
    refine ⟨by simpa using notSpace, ?_, ?_⟩
    · rintro rfl
      cases noSign
    · rintro rfl
      cases noSign
  areDigits := fun ch present => List.mem_takeWhile_imp present
  stops := by
    intro ch first
    have stops := List.head?_dropWhile_not isDigit (skipSign (text.dropWhile isSpace)).2
    unfold stoulRest at first
    rw [first] at stops
    simpa using stops

/-- A text has no other parts. -/
theorem NumberParts.eq_stoul
    {text sign digits rest : Bytes}
    (parts : NumberParts text sign digits rest) :
    stoulSign text = sign ∧ stoulDigits text = digits ∧ stoulRest text = rest := by
  obtain ⟨⟨blanks, whole, areBlanks⟩, isSign, settles, areDigits, stops⟩ := parts
  have behind : text.dropWhile isSpace = sign ++ (digits ++ rest) := by
    rw [whole, List.dropWhile_append_of_pos areBlanks]
    refine (span_of_head? fun ch first => ?_).2
    obtain rfl | rfl | rfl := isSign
    · exact (settles rfl ch first).1
    · obtain rfl := Option.some.inj first
      decide
    · obtain rfl := Option.some.inj first
      decide
  have sameSign := signOf_append isSign settles
  have tail : (skipSign (sign ++ (digits ++ rest))).2 = digits ++ rest := by
    have split := (skipSign_eq (sign ++ (digits ++ rest))).2
    rw [sameSign] at split
    exact (List.append_cancel_left split).symm
  have takes : (digits ++ rest).takeWhile isDigit = digits := by
    rw [List.takeWhile_append_of_pos areDigits, (span_of_head? stops).1, List.append_nil]
  have drops : (digits ++ rest).dropWhile isDigit = rest := by
    rw [List.dropWhile_append_of_pos areDigits, (span_of_head? stops).2]
  unfold stoulSign stoulDigits stoulRest
  rw [behind, tail]
  exact ⟨sameSign, takes, drops⟩

theorem stoul_eq_ok_iff {text : Bytes} {number : Nat} :
    stoul text = .ok number ↔ ReadsAs text number := by
  rw [stoul_eq]
  constructor
  · intro read
    split_ifs at read with none small
    exact ⟨_, _, _, numberParts_stoul text, none, small, Except.ok.inj read⟩
  · rintro ⟨sign, digits, rest, parts, nonempty, small, value⟩
    obtain ⟨sameSign, sameDigits, -⟩ := parts.eq_stoul
    rw [sameDigits, sameSign, if_neg nonempty, if_pos small, value]

theorem openNumber_iff (text : Bytes) :
    OpenNumber text ↔ stoulRest text = [] ∧ digitsValue (stoulDigits text) < 2 ^ 64 := by
  constructor
  · rintro ⟨sign, digits, parts, small⟩
    obtain ⟨-, sameDigits, sameRest⟩ := parts.eq_stoul
    exact ⟨sameRest, sameDigits ▸ small⟩
  · rintro ⟨nothing, small⟩
    exact ⟨_, _, nothing ▸ numberParts_stoul text, small⟩

/-- An open number has only blanks, signs and digits. -/
theorem OpenNumber.byte
    {text : Bytes} {ch : UInt8}
    (isOpen : OpenNumber text)
    (present : ch ∈ text) :
    isSpace ch = true ∨ ch = 43 ∨ ch = 45 ∨ isDigit ch = true := by
  obtain ⟨sign, digits, parts, -⟩ := isOpen
  obtain ⟨blanks, whole, areBlanks⟩ := parts.blanks
  rw [whole, List.append_nil] at present
  rcases List.mem_append.mp present with inBlanks | after
  · exact Or.inl (areBlanks ch inBlanks)
  · rcases List.mem_append.mp after with inSign | inDigits
    · obtain rfl | rfl | rfl := parts.isSign
      · cases inSign
      · exact Or.inr (Or.inl (List.mem_singleton.mp inSign))
      · exact Or.inr (Or.inr (Or.inl (List.mem_singleton.mp inSign)))
    · exact Or.inr (Or.inr (Or.inr (parts.areDigits ch inDigits)))

/-! ## Texts that go on -/

/-- What follows a rest changes only the rest. -/
theorem NumberParts.append
    {text sign digits rest : Bytes}
    (parts : NumberParts text sign digits rest)
    (left : rest ≠ [])
    (more : Bytes) :
    NumberParts (text ++ more) sign digits (rest ++ more) := by
  obtain ⟨⟨blanks, whole, areBlanks⟩, isSign, settles, areDigits, stops⟩ := parts
  have sameHead : (rest ++ more).head? = rest.head? := List.head?_append_of_ne_nil _ left
  have sameStart : (digits ++ (rest ++ more)).head? = (digits ++ rest).head? := by
    rw [← List.append_assoc]
    exact List.head?_append_of_ne_nil _ (List.append_ne_nil_of_right_ne_nil _ left)
  refine ⟨⟨blanks, ?_, areBlanks⟩, isSign, sameStart ▸ settles, areDigits, sameHead ▸ stops⟩
  rw [whole]
  simp only [List.append_assoc]

/-- Digits after a number with no rest continue it. -/
theorem NumberParts.extend
    {text sign digits more rest : Bytes}
    (parts : NumberParts text sign digits [])
    (areDigits : ∀ ch ∈ more, isDigit ch = true)
    (stops : ∀ ch, rest.head? = some ch → isDigit ch = false)
    (settles : digits ++ more = [] → ∀ ch, rest.head? = some ch → Settles ch) :
    NumberParts (text ++ (more ++ rest)) sign (digits ++ more) rest := by
  obtain ⟨⟨blanks, whole, areBlanks⟩, isSign, -, found, -⟩ := parts
  have all : ∀ ch ∈ digits ++ more, isDigit ch = true := by
    intro ch present
    rcases List.mem_append.mp present with earlier | later
    · exact found ch earlier
    · exact areDigits ch later
  refine ⟨⟨blanks, ?_, areBlanks⟩, isSign, fun _ ch first => ?_, all, stops⟩
  · rw [whole]
    simp only [List.append_nil, List.append_assoc]
  · cases together : digits ++ more with
    | nil =>
        rw [together, List.nil_append] at first
        exact settles together ch first
    | cons digit others =>
        rw [together] at first
        obtain rfl := Option.some.inj first
        exact settles_of_isDigit (all digit (together ▸ List.mem_cons_self))

/-- What follows a rest does not change what `stoul` reads before it. -/
theorem stoul_append
    {text : Bytes}
    (left : stoulRest text ≠ [])
    (more : Bytes) :
    stoul (text ++ more) = stoul text := by
  obtain ⟨sameSign, sameDigits, -⟩ := ((numberParts_stoul text).append left more).eq_stoul
  rw [stoul_eq, stoul_eq, sameSign, sameDigits]

theorem digitsValue_append (first second : Bytes) :
    digitsValue (first ++ second) =
      digitsValue first * 10 ^ second.length + digitsValue second := by
  rw [digitsValue, List.map_append, Numeral.read_append, List.length_map]
  rfl

/-- A number of more than 64 bits stays one. -/
theorem stoul_append_of_large
    {text : Bytes}
    (nothing : stoulRest text = [])
    (large : 2 ^ 64 ≤ digitsValue (stoulDigits text))
    (more : Bytes) :
    stoul (text ++ more) = .error .outOfRange := by
  have parts := numberParts_stoul text
  rw [nothing] at parts
  have nonempty : stoulDigits text ≠ [] := by
    intro none
    rw [none] at large
    exact absurd large (by decide)
  have longer : NumberParts (text ++ (more.takeWhile isDigit ++ more.dropWhile isDigit)) _ _ _ :=
    parts.extend (fun ch present => List.mem_takeWhile_imp present)
      (fun ch first => by simpa [first] using List.head?_dropWhile_not isDigit more)
      (fun none => absurd (List.append_eq_nil_iff.mp none).1 nonempty)
  rw [List.takeWhile_append_dropWhile] at longer
  obtain ⟨-, sameDigits, -⟩ := longer.eq_stoul
  have more_large : ¬digitsValue (stoulDigits (text ++ more)) < 2 ^ 64 := by
    rw [sameDigits, digitsValue_append]
    have grows := Nat.le_mul_of_pos_right (digitsValue (stoulDigits text))
      (Nat.pow_pos (n := (more.takeWhile isDigit).length) (by decide : 0 < 10))
    omega
  rw [stoul_eq, if_neg, if_neg more_large]
  rw [sameDigits]
  exact fun none => nonempty (List.append_eq_nil_iff.mp none).1

theorem stoul_extend
    {text sign digits more : Bytes}
    (parts : NumberParts text sign digits [])
    (areDigits : ∀ ch ∈ more, isDigit ch = true)
    (nonempty : digits ++ more ≠ []) :
    stoul (text ++ more) =
      if digitsValue (digits ++ more) < 2 ^ 64 then .ok (signedValue sign (digits ++ more))
      else .error .outOfRange := by
  have longer : NumberParts (text ++ (more ++ [])) sign (digits ++ more) [] :=
    parts.extend areDigits nofun fun none => absurd none nonempty
  rw [List.append_nil] at longer
  obtain ⟨sameSign, sameDigits, -⟩ := longer.eq_stoul
  rw [stoul_eq, sameSign, sameDigits, if_neg nonempty]

/-- What follows an open number decides whether `stoul` returns. -/
theorem OpenNumber.continued
    {text : Bytes}
    (isOpen : OpenNumber text) :
    (∃ more number, (∀ ch ∈ more, isDigit ch = true) ∧ stoul (text ++ more) = .ok number) ∧
      ∃ more error, (∀ ch ∈ more, isDigit ch = true) ∧ stoul (text ++ more) = .error error := by
  obtain ⟨sign, digits, parts, small⟩ := isOpen
  constructor
  · by_cases nothing : digits = []
    · subst nothing
      have zero : ∀ ch ∈ ([48] : Bytes), isDigit ch = true :=
        List.forall_mem_singleton.mpr rfl
      exact ⟨[48], _, zero, (stoul_extend parts zero (by decide)).trans (if_pos (by decide))⟩
    · have none : ∀ ch ∈ ([] : Bytes), isDigit ch = true := by simp
      refine ⟨[], signedValue sign digits, none, ?_⟩
      rw [stoul_extend parts none (by rwa [List.append_nil]), List.append_nil, if_pos small]
  · have nines : ∀ ch ∈ List.replicate 20 (57 : UInt8), isDigit ch = true := fun ch isNine =>
      List.eq_of_mem_replicate isNine ▸ rfl
    have large : ¬digitsValue (digits ++ List.replicate 20 57) < 2 ^ 64 := by
      have many : digitsValue (List.replicate 20 57) = 99999999999999999999 := by decide
      rw [digitsValue_append, many]
      omega
    exact ⟨List.replicate 20 57, _, nines,
      (stoul_extend parts nines (by simp)).trans (if_neg large)⟩

/-- What follows any other text does not matter. -/
theorem stoul_append_of_not_open
    {text : Bytes}
    (notOpen : ¬OpenNumber text)
    (first second : Bytes) :
    stoul (text ++ first) = stoul (text ++ second) := by
  by_cases nothing : stoulRest text = []
  · have large : 2 ^ 64 ≤ digitsValue (stoulDigits text) :=
      Nat.le_of_not_lt fun small => notOpen ((openNumber_iff text).mpr ⟨nothing, small⟩)
    rw [stoul_append_of_large nothing large, stoul_append_of_large nothing large]
  · rw [stoul_append nothing, stoul_append nothing]

/-- A byte 0 ends a number. -/
theorem stoul_append_of_zero
    {text rest : Bytes}
    (zero : ∀ ch, rest.head? = some ch → ch = 0) :
    stoul (text ++ rest) = stoul text := by
  by_cases nothing : stoulRest text = []
  · have parts := numberParts_stoul text
    rw [nothing] at parts
    have longer : NumberParts (text ++ ([] ++ rest)) _ _ _ :=
      parts.extend (by simp) (fun ch first => by rw [zero ch first]; decide)
        (fun _ ch first => by rw [zero ch first]; decide)
    rw [List.nil_append, List.append_nil] at longer
    obtain ⟨sameSign, sameDigits, -⟩ := longer.eq_stoul
    rw [stoul_eq, stoul_eq, sameSign, sameDigits]
  · exact stoul_append nothing rest

/-- `stoul` reads nothing behind the first byte 0. -/
theorem stoul_cString (text : Bytes) : stoul (cString text) = stoul text := by
  have zero : ∀ ch, (text.dropWhile (· ≠ 0)).head? = some ch → ch = 0 := by
    intro ch first
    have stops := List.head?_dropWhile_not (· ≠ (0 : UInt8)) text
    rw [first] at stops
    simpa using stops
  calc stoul (cString text)
      = stoul (cString text ++ text.dropWhile (· ≠ 0)) := (stoul_append_of_zero zero).symm
    _ = stoul text := by rw [cString, List.takeWhile_append_dropWhile]

end Cppio
