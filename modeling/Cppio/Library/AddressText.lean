import Cppio.Library.Numeral
import Cppio.Library.Search

/-!
# Texts of internet addresses

The presentation formats of addresses, as grammars over any alphabet: a dotted
decimal of four octets, none of them padded with zeros; and eight words in base
sixteen between colons, with two colons in place of one run of zero words and a
dotted decimal in place of the last two words.  Each grammar comes with a reader
that decides it.
-/

namespace AddressText

/-- The two separators, and the values of the symbols that are digits. -/
structure Alphabet (Symbol : Type) where
  dot : Symbol
  colon : Symbol
  decimal : Symbol → Option Nat
  hex : Symbol → Option Nat
  decimal_dot : decimal dot = none
  decimal_colon : decimal colon = none
  hex_dot : hex dot = none
  hex_colon : hex colon = none
  different : dot ≠ colon

/-! ## Values in a row -/

/-- The values, when none is missing. -/
def collect {α : Type} : List (Option α) → Option (List α)
  | [] => some []
  | option :: options => option.bind fun value => (collect options).map (value :: ·)

theorem collect_eq_some
    {α : Type} {options : List (Option α)} {values : List α} :
    collect options = some values ↔ options = values.map some := by
  induction options generalizing values with
  | nil => cases values <;> simp [collect]
  | cons option options inductionHypothesis =>
      cases values with
      | nil =>
          simp only [collect, Option.bind_eq_some_iff, Option.map_eq_some_iff]
          simp
      | cons value values =>
          simp only [collect, Option.bind_eq_some_iff, Option.map_eq_some_iff, List.map_cons,
            List.cons.injEq, ← inductionHypothesis]
          constructor
          · rintro ⟨first, isFirst, rest, isRest, rfl, rfl⟩
            exact ⟨isFirst, isRest⟩
          · rintro ⟨isFirst, isRest⟩
            exact ⟨value, isFirst, values, isRest, rfl, rfl⟩

/-- A symbol of a list whose values are all there has a value. -/
theorem isSome_of_map_eq
    {α β : Type} {value : α → Option β} {list : List α} {values : List β}
    (all : list.map value = values.map some)
    {element : α}
    (present : element ∈ list) :
    ∃ found, value element = some found := by
  have inside : value element ∈ values.map some := all ▸ List.mem_map_of_mem present
  obtain ⟨found, -, isFound⟩ := List.mem_map.mp inside
  exact ⟨found, isFound.symm⟩

theorem mem_intercalate
    {α : Type} {separator element : α} {parts : List (List α)}
    (present : element ∈ [separator].intercalate parts) :
    element = separator ∨ ∃ part ∈ parts, element ∈ part := by
  induction parts with
  | nil => cases present
  | cons part parts inductionHypothesis =>
      cases parts with
      | nil =>
          rw [List.intercalate_singleton] at present
          exact Or.inr ⟨part, List.mem_cons_self, present⟩
      | cons next parts =>
          rw [List.intercalate_cons_cons, List.append_assoc, List.mem_append,
            List.singleton_append, List.mem_cons] at present
          rcases present with here | isSeparator | later
          · exact Or.inr ⟨part, List.mem_cons_self, here⟩
          · exact Or.inl isSeparator
          · rcases inductionHypothesis later with isSeparator | ⟨other, inside, there⟩
            · exact Or.inl isSeparator
            · exact Or.inr ⟨other, List.mem_cons_of_mem _ inside, there⟩

variable {Symbol : Type}

/-- The number written by at least one and at most `count` digits. -/
def number (digit : Symbol → Option Nat) (base count : Nat) (field : List Symbol) : Option Nat :=
  if field ≠ [] ∧ field.length ≤ count then
    (collect (field.map digit)).map (Numeral.read base)
  else none

theorem number_eq_some
    {digit : Symbol → Option Nat} {base count : Nat} {field : List Symbol} {value : Nat} :
    number digit base count field = some value ↔
      field ≠ [] ∧ field.length ≤ count ∧
        ∃ digits, field.map digit = digits.map some ∧ Numeral.read base digits = value := by
  unfold number
  split_ifs with size
  · simp [Option.map_eq_some_iff, collect_eq_some, size]
  · constructor
    · intro absurd_
      cases absurd_
    · rintro ⟨nonempty, short, -⟩
      exact absurd ⟨nonempty, short⟩ size

/-- A number has no symbol that is not a digit. -/
theorem notMem_of_number
    {digit : Symbol → Option Nat} {base count : Nat} {field : List Symbol} {value : Nat}
    (isNumber : number digit base count field = some value)
    {symbol : Symbol}
    (notDigit : digit symbol = none) :
    symbol ∉ field := by
  intro present
  obtain ⟨-, -, digits, all, -⟩ := number_eq_some.mp isNumber
  obtain ⟨found, isFound⟩ := isSome_of_map_eq all present
  rw [notDigit] at isFound
  cases isFound

/-- Digits below the base write a number below a power of it. -/
theorem number_lt
    {digit : Symbol → Option Nat} {base count : Nat} {field : List Symbol} {value : Nat}
    (large : 1 < base)
    (small : ∀ symbol value, digit symbol = some value → value < base)
    (isNumber : number digit base count field = some value) :
    value < base ^ count := by
  obtain ⟨-, short, digits, all, rfl⟩ := number_eq_some.mp isNumber
  have below : ∀ value ∈ digits.reverse, value < base := by
    intro value present
    have inside : some value ∈ field.map digit :=
      all ▸ List.mem_map_of_mem (List.mem_reverse.mp present)
    obtain ⟨symbol, -, found⟩ := List.mem_map.mp inside
    exact small symbol value found
  have length : digits.reverse.length ≤ count := by
    have same := congrArg List.length all
    rw [List.length_map, List.length_map] at same
    rwa [List.length_reverse, ← same]
  rw [Numeral.read_eq_ofDigits]
  calc Nat.ofDigits base digits.reverse
      < base ^ digits.reverse.length := Nat.ofDigits_lt_base_pow_length large below
    _ ≤ base ^ count := Nat.pow_le_pow_right (by omega) length

namespace Alphabet

variable (alphabet : Alphabet Symbol)

/-! ## Dotted decimals -/

/-- More than one symbol, the first of which is the digit zero. -/
def padded : List Symbol → Bool
  | first :: _ :: _ => alphabet.decimal first = some 0
  | _ => false

/-- One to three decimal digits, without a leading zero, that write a number below 256. -/
def octet (field : List Symbol) : Option Nat :=
  (number alphabet.decimal 10 3 field).filter fun value =>
    value < 256 && !alphabet.padded field

/-- Four octets between dots. -/
def DottedDecimal (text : List Symbol) (octets : List Nat) : Prop :=
  ∃ fields, text = [alphabet.dot].intercalate fields ∧ fields.length = 4 ∧
    fields.map alphabet.octet = octets.map some

variable {alphabet}

theorem number_of_octet
    {field : List Symbol} {value : Nat}
    (isOctet : alphabet.octet field = some value) :
    number alphabet.decimal 10 3 field = some value :=
  (Option.filter_eq_some_iff.mp isOctet).1

/-- A shortest numeral has no leading zero. -/
theorem padded_of_isShortest
    {field : List Symbol} {digits : List Nat}
    (all : field.map alphabet.decimal = digits.map some)
    (shortest : Numeral.IsShortest 10 digits) :
    alphabet.padded field = false := by
  match field, digits with
  | first :: second :: field, leading :: next :: digits =>
      obtain ⟨isLeading, -⟩ := List.cons.inj all
      have notZero : leading ≠ 0 := by
        rintro rfl
        cases shortest.leading rfl
      simpa [padded, isLeading] using notZero
  | [], _ | [_], _ => rfl
  | _ :: _ :: _, [] | _ :: _ :: _, [_] => simp at all

/-- A dotted decimal has a dot, no colon and four octets. -/
theorem DottedDecimal.symbols
    {text : List Symbol} {octets : List Nat}
    (dotted : alphabet.DottedDecimal text octets) :
    alphabet.dot ∈ text ∧ alphabet.colon ∉ text ∧ octets.length = 4 := by
  obtain ⟨fields, rfl, four, all⟩ := dotted
  have sameLength := congrArg List.length all
  rw [List.length_map, List.length_map, four] at sameLength
  refine ⟨?_, fun present => ?_, sameLength.symm⟩
  · obtain ⟨first, fields, rfl⟩ := List.exists_cons_of_length_eq_add_one four
    obtain ⟨second, fields, rfl⟩ :=
      List.exists_cons_of_length_eq_add_one (Nat.succ.inj four)
    rw [List.intercalate_cons_cons]
    simp
  · rcases mem_intercalate present with isDot | ⟨field, inside, there⟩
    · exact alphabet.different isDot.symm
    · obtain ⟨value, isOctet⟩ := isSome_of_map_eq all inside
      exact notMem_of_number (number_of_octet isOctet) alphabet.decimal_colon there

theorem DottedDecimal.octets_lt
    {text : List Symbol} {octets : List Nat}
    (dotted : alphabet.DottedDecimal text octets) :
    ∀ octet ∈ octets, octet < 256 := by
  obtain ⟨fields, -, -, all⟩ := dotted
  intro octet present
  have inside : some octet ∈ fields.map alphabet.octet := all ▸ List.mem_map_of_mem present
  obtain ⟨field, -, isOctet⟩ := List.mem_map.mp inside
  have kept := (Option.filter_eq_some_iff.mp isOctet).2
  rw [Bool.and_eq_true, decide_eq_true_eq] at kept
  exact kept.1

/-! ## Words between colons -/

variable (alphabet)

/-- One to four digits in base sixteen. -/
def group (field : List Symbol) : Option Nat :=
  number alphabet.hex 16 4 field

/-- The two words that four octets make. -/
def octetWords : List Nat → List Nat
  | [first, second, third, fourth] => [256 * first + second, 256 * third + fourth]
  | _ => []

/-- The words of the fields between colons, the last of which may be a dotted
decimal. -/
inductive Row : List (List Symbol) → List Nat → Prop
  | empty : Row [] []
  | dotted {field : List Symbol} {octets : List Nat}
      (isDotted : alphabet.DottedDecimal field octets) :
      Row [field] (octetWords octets)
  | group {field : List Symbol} {word : Nat} {fields : List (List Symbol)} {words : List Nat}
      (isGroup : alphabet.group field = some word)
      (rest : Row fields words) :
      Row (field :: fields) (word :: words)

/-- The eight words of a text. -/
inductive Denotes : List Symbol → List Nat → Prop
  | full {fields : List (List Symbol)} {words : List Nat}
      (row : alphabet.Row fields words)
      (eight : words.length = 8) :
      Denotes ([alphabet.colon].intercalate fields) words
  /-- Two colons stand for the words that are missing, all zero. -/
  | compressed {left right : List (List Symbol)} {leftWords rightWords : List Nat}
      (groups : left.map alphabet.group = leftWords.map some)
      (row : alphabet.Row right rightWords)
      (missing : leftWords.length + rightWords.length < 8) :
      Denotes
        ([alphabet.colon].intercalate left ++ alphabet.colon :: alphabet.colon ::
          [alphabet.colon].intercalate right)
        (leftWords ++ List.replicate (8 - (leftWords.length + rightWords.length)) 0 ++ rightWords)

variable {alphabet}

/-- A field is not empty and has no colon. -/
def IsField (alphabet : Alphabet Symbol) (field : List Symbol) : Prop :=
  field ≠ [] ∧ alphabet.colon ∉ field

theorem isField_of_group
    {field : List Symbol} {word : Nat}
    (isGroup : alphabet.group field = some word) :
    alphabet.IsField field :=
  ⟨(number_eq_some.mp isGroup).1, notMem_of_number isGroup alphabet.hex_colon⟩

theorem Row.isField
    {fields : List (List Symbol)} {words : List Nat}
    (row : alphabet.Row fields words) :
    ∀ field ∈ fields, alphabet.IsField field := by
  induction row with
  | empty => simp
  | dotted isDotted =>
      obtain ⟨hasDot, noColon, -⟩ := isDotted.symbols
      intro field present
      obtain rfl := List.mem_singleton.mp present
      exact ⟨List.ne_nil_of_mem hasDot, noColon⟩
  | group isGroup _ inductionHypothesis =>
      intro field present
      rcases List.mem_cons.mp present with rfl | later
      · exact isField_of_group isGroup
      · exact inductionHypothesis field later

theorem isField_of_groups
    {fields : List (List Symbol)} {words : List Nat}
    (groups : fields.map alphabet.group = words.map some) :
    ∀ field ∈ fields, alphabet.IsField field := by
  intro field present
  obtain ⟨word, isGroup⟩ := isSome_of_map_eq groups present
  exact isField_of_group isGroup

/-- Groups alone are a row. -/
theorem row_of_groups
    {fields : List (List Symbol)} {words : List Nat}
    (groups : fields.map alphabet.group = words.map some) :
    alphabet.Row fields words := by
  induction fields generalizing words with
  | nil =>
      obtain rfl : words = [] := by simpa using groups.symm
      exact .empty
  | cons field fields inductionHypothesis =>
      cases words with
      | nil => cases groups
      | cons word words =>
          obtain ⟨isGroup, rest⟩ := List.cons.inj groups
          exact .group isGroup (inductionHypothesis rest)

/-- Eight words do not fit into one field. -/
theorem Row.exists_cons_cons
    {fields : List (List Symbol)} {words : List Nat}
    (row : alphabet.Row fields words)
    (eight : words.length = 8) :
    ∃ first second rest, fields = first :: second :: rest := by
  cases row with
  | empty => cases eight
  | dotted _ =>
      unfold octetWords at eight
      split at eight <;> cases eight
  | @group first _ rest _ _ row =>
      cases rest with
      | nil =>
          cases row
          cases eight
      | cons second rest => exact ⟨first, second, rest, rfl⟩

/-- A text that denotes words has a colon and another symbol. -/
theorem Denotes.symbols
    {text : List Symbol} {words : List Nat}
    (denotes : alphabet.Denotes text words) :
    alphabet.colon ∈ text ∧ 2 ≤ text.length := by
  cases denotes with
  | full row eight =>
      obtain ⟨first, second, rest, rfl⟩ := row.exists_cons_cons eight
      have nonempty := List.length_pos_of_ne_nil (row.isField first List.mem_cons_self).1
      rw [List.intercalate_cons_cons]
      refine ⟨by simp, ?_⟩
      simp only [List.length_append, List.length_singleton]
      omega
  | compressed groups row missing =>
      refine ⟨by simp, ?_⟩
      simp only [List.length_append, List.length_cons]
      omega

/-! ## What is denoted -/

theorem Row.words_lt
    {fields : List (List Symbol)} {words : List Nat}
    (small : ∀ symbol value, alphabet.hex symbol = some value → value < 16)
    (row : alphabet.Row fields words) :
    ∀ word ∈ words, word < 65536 := by
  induction row with
  | empty => simp
  | @dotted field octets isDotted =>
      have bounds := isDotted.octets_lt
      intro word present
      unfold octetWords at present
      split at present
      · simp only [List.mem_cons, List.not_mem_nil, or_false, forall_eq_or_imp, forall_eq]
          at bounds present
        omega
      · cases present
  | group isGroup _ inductionHypothesis =>
      intro word present
      rcases List.mem_cons.mp present with rfl | later
      · exact number_lt (by decide) small isGroup
      · exact inductionHypothesis word later

/-- A text denotes eight words. -/
theorem Denotes.eight
    {text : List Symbol} {words : List Nat}
    (denotes : alphabet.Denotes text words) :
    words.length = 8 := by
  cases denotes with
  | full _ eight => exact eight
  | compressed _ _ missing =>
      simp only [List.length_append, List.length_replicate]
      omega

theorem Denotes.words_lt
    {text : List Symbol} {words : List Nat}
    (small : ∀ symbol value, alphabet.hex symbol = some value → value < 16)
    (denotes : alphabet.Denotes text words) :
    ∀ word ∈ words, word < 65536 := by
  cases denotes with
  | full row _ => exact row.words_lt small
  | compressed groups row _ =>
      intro word present
      simp only [List.mem_append, List.mem_replicate] at present
      rcases present with (inLeft | ⟨-, rfl⟩) | inRight
      · exact (row_of_groups groups).words_lt small word inLeft
      · decide
      · exact row.words_lt small word inRight

/-! ## Which symbols occur -/

/-- The symbols of addresses. -/
def Occurs (alphabet : Alphabet Symbol) (symbol : Symbol) : Prop :=
  symbol = alphabet.dot ∨ symbol = alphabet.colon ∨
    (∃ value, alphabet.decimal symbol = some value) ∨ ∃ value, alphabet.hex symbol = some value

theorem DottedDecimal.occurs
    {text : List Symbol} {octets : List Nat}
    (dotted : alphabet.DottedDecimal text octets) :
    ∀ symbol ∈ text, alphabet.Occurs symbol := by
  obtain ⟨fields, rfl, -, all⟩ := dotted
  intro symbol present
  rcases mem_intercalate present with rfl | ⟨field, inside, there⟩
  · exact Or.inl rfl
  · obtain ⟨value, isOctet⟩ := isSome_of_map_eq all inside
    obtain ⟨-, -, digits, all, -⟩ := number_eq_some.mp (number_of_octet isOctet)
    exact Or.inr (Or.inr (Or.inl (isSome_of_map_eq all there)))

theorem occurs_of_group
    {field : List Symbol} {word : Nat}
    (isGroup : alphabet.group field = some word) :
    ∀ symbol ∈ field, alphabet.Occurs symbol := by
  intro symbol present
  obtain ⟨-, -, digits, all, -⟩ := number_eq_some.mp isGroup
  exact Or.inr (Or.inr (Or.inr (isSome_of_map_eq all present)))

theorem Row.occurs
    {fields : List (List Symbol)} {words : List Nat}
    (row : alphabet.Row fields words) :
    ∀ field ∈ fields, ∀ symbol ∈ field, alphabet.Occurs symbol := by
  induction row with
  | empty => simp
  | dotted isDotted =>
      intro field present
      obtain rfl := List.mem_singleton.mp present
      exact isDotted.occurs
  | group isGroup _ inductionHypothesis =>
      intro field present
      rcases List.mem_cons.mp present with rfl | later
      · exact occurs_of_group isGroup
      · exact inductionHypothesis field later

theorem Row.occurs_intercalate
    {fields : List (List Symbol)} {words : List Nat}
    (row : alphabet.Row fields words) :
    ∀ symbol ∈ [alphabet.colon].intercalate fields, alphabet.Occurs symbol := by
  intro symbol present
  rcases mem_intercalate present with rfl | ⟨field, inside, there⟩
  · exact Or.inr (Or.inl rfl)
  · exact row.occurs field inside symbol there

theorem Denotes.occurs
    {text : List Symbol} {words : List Nat}
    (denotes : alphabet.Denotes text words) :
    ∀ symbol ∈ text, alphabet.Occurs symbol := by
  cases denotes with
  | full row _ => exact row.occurs_intercalate
  | compressed groups row _ =>
      intro symbol present
      simp only [List.mem_append, List.mem_cons] at present
      rcases present with inLeft | rfl | rfl | inRight
      · exact (row_of_groups groups).occurs_intercalate symbol inLeft
      · exact Or.inr (Or.inl rfl)
      · exact Or.inr (Or.inl rfl)
      · exact row.occurs_intercalate symbol inRight

/-- The words of a row of at most two fields are less than eight. -/
theorem Row.exists_third
    {fields : List (List Symbol)} {words : List Nat}
    (row : alphabet.Row fields words)
    (eight : words.length = 8) :
    ∃ first second third rest, fields = first :: second :: third :: rest := by
  have short : ∀ octets, (octetWords octets).length ≤ 2 := by
    intro octets
    unfold octetWords
    split <;> simp
  cases row with
  | empty => cases eight
  | @dotted field octets _ => exact absurd (short octets) (by omega)
  | @group first _ fields words _ row =>
      rw [List.length_cons] at eight
      cases row with
      | empty => cases eight
      | @dotted field octets _ => exact absurd (short octets) (by omega)
      | @group second _ fields words _ row =>
          cases row with
          | empty => cases eight
          | @dotted third octets _ => exact ⟨first, second, third, [], rfl⟩
          | @group third _ fields _ _ _ => exact ⟨first, second, third, fields, rfl⟩

/-- What stands before a colon of a text that denotes words, or what stands after it, has a
colon too. -/
theorem Denotes.colon_mem
    {before after : List Symbol} {words : List Nat}
    (denotes : alphabet.Denotes (before ++ alphabet.colon :: after) words) :
    alphabet.colon ∈ before ∨ alphabet.colon ∈ after := by
  classical
  have twice : ∀ {text}, alphabet.Denotes text words → 2 ≤ text.count alphabet.colon := by
    intro text denotes
    cases denotes with
    | full row eight =>
        obtain ⟨first, second, third, rest, rfl⟩ := row.exists_third eight
        cases rest with
        | nil => simp [List.intercalate_cons_cons]; omega
        | cons next rest => simp [List.intercalate_cons_cons]; omega
    | compressed groups row missing => simp; omega
  have count := twice denotes
  rw [List.count_append, List.count_cons_self] at count
  by_contra none
  rw [not_or] at none
  rw [List.count_eq_zero_of_not_mem none.1, List.count_eq_zero_of_not_mem none.2] at count
  omega

/-! ## Readers -/

variable [DecidableEq Symbol]
variable (alphabet)

/-- The octets of a dotted decimal. -/
def dottedDecimal (text : List Symbol) : Option (List Nat) :=
  let fields := text.splitOn alphabet.dot
  if fields.length = 4 then collect (fields.map alphabet.octet) else none

/-- The fields between colons. -/
def fields (text : List Symbol) : List (List Symbol) :=
  if text = [] then [] else text.splitOn alphabet.colon

/-- The words of the fields. -/
def row : List (List Symbol) → Option (List Nat)
  | [] => some []
  | field :: fields =>
      match alphabet.group field with
      | some word => (row fields).map (word :: ·)
      | none => if fields = [] then (alphabet.dottedDecimal field).map octetWords else none

/-- The words of a text in which two colons cut off the parts. -/
def compressed (left right : List (List Symbol)) : Option (List Nat) :=
  (collect (left.map alphabet.group)).bind fun leftWords =>
    (alphabet.row right).bind fun rightWords =>
      if leftWords.length + rightWords.length < 8 then
        some (leftWords ++ List.replicate (8 - (leftWords.length + rightWords.length)) 0 ++
          rightWords)
      else none

/-- The eight words of a text. -/
def words (text : List Symbol) : Option (List Nat) :=
  match Search.cut [alphabet.colon, alphabet.colon] text with
  | none => (alphabet.row (alphabet.fields text)).filter (·.length = 8)
  | some (left, right) => alphabet.compressed (alphabet.fields left) (alphabet.fields right)

variable {alphabet}

theorem dottedDecimal_eq_some {text : List Symbol} {octets : List Nat} :
    alphabet.dottedDecimal text = some octets ↔ alphabet.DottedDecimal text octets := by
  unfold dottedDecimal
  simp only [Option.ite_none_right_eq_some, collect_eq_some]
  constructor
  · rintro ⟨four, all⟩
    exact ⟨_, (List.intercalate_splitOn _).symm, four, all⟩
  · rintro ⟨fields, rfl, four, all⟩
    have absent : ∀ field ∈ fields, alphabet.dot ∉ field := by
      intro field present
      obtain ⟨value, isOctet⟩ := isSome_of_map_eq all present
      exact notMem_of_number (number_of_octet isOctet) alphabet.decimal_dot
    have nonempty : fields ≠ [] := by
      rintro rfl
      cases four
    rw [List.splitOn_intercalate _ absent nonempty]
    exact ⟨four, all⟩

theorem intercalate_fields (text : List Symbol) :
    [alphabet.colon].intercalate (alphabet.fields text) = text := by
  unfold fields
  split_ifs with isEmpty
  · rw [isEmpty, List.intercalate_nil]
  · exact List.intercalate_splitOn _

theorem fields_intercalate
    {parts : List (List Symbol)}
    (areFields : ∀ part ∈ parts, alphabet.IsField part) :
    alphabet.fields ([alphabet.colon].intercalate parts) = parts := by
  cases parts with
  | nil => rfl
  | cons part parts =>
      have nonempty : [alphabet.colon].intercalate (part :: parts) ≠ [] := by
        have partNonempty := (areFields part List.mem_cons_self).1
        cases parts with
        | nil => simpa using partNonempty
        | cons next parts => simp [List.intercalate_cons_cons]
      rw [fields, if_neg nonempty]
      exact List.splitOn_intercalate _ (fun part present => (areFields part present).2)
        (List.cons_ne_nil _ _)

theorem row_eq_some {fields : List (List Symbol)} {words : List Nat} :
    alphabet.row fields = some words ↔ alphabet.Row fields words := by
  constructor
  · intro read
    induction fields generalizing words with
    | nil =>
        obtain rfl := Option.some.inj read
        exact .empty
    | cons field fields inductionHypothesis =>
        unfold row at read
        cases isGroup : alphabet.group field with
        | some word =>
            simp only [isGroup, Option.map_eq_some_iff] at read
            obtain ⟨rest, readRest, rfl⟩ := read
            exact .group isGroup (inductionHypothesis readRest)
        | none =>
            simp only [isGroup, Option.ite_none_right_eq_some, Option.map_eq_some_iff] at read
            obtain ⟨rfl, octets, isDotted, rfl⟩ := read
            exact .dotted (dottedDecimal_eq_some.mp isDotted)
  · intro isRow
    induction isRow with
    | empty => rfl
    | @dotted field octets isDotted =>
        have notGroup : alphabet.group field = none := by
          by_contra isGroup
          obtain ⟨word, isGroup⟩ := Option.ne_none_iff_exists'.mp isGroup
          exact notMem_of_number isGroup alphabet.hex_dot isDotted.symbols.1
        simp [row, notGroup, dottedDecimal_eq_some.mpr isDotted]
    | group isGroup _ inductionHypothesis =>
        simp [row, isGroup, inductionHypothesis]

theorem compressed_eq_some
    {left right : List (List Symbol)} {words : List Nat} :
    alphabet.compressed left right = some words ↔
      ∃ leftWords rightWords, left.map alphabet.group = leftWords.map some ∧
        alphabet.Row right rightWords ∧ leftWords.length + rightWords.length < 8 ∧
          leftWords ++ List.replicate (8 - (leftWords.length + rightWords.length)) 0 ++
            rightWords = words := by
  simp only [compressed, Option.bind_eq_some_iff, collect_eq_some, row_eq_some,
    Option.ite_none_right_eq_some, Option.some.injEq]
  grind

/-- The reader decides the grammar. -/
theorem words_eq_some {text : List Symbol} {eight : List Nat} :
    alphabet.words text = some eight ↔ alphabet.Denotes text eight := by
  constructor
  · intro read
    unfold words at read
    cases found : Search.cut [alphabet.colon, alphabet.colon] text with
    | none =>
        simp only [found, Option.filter_eq_some_iff, row_eq_some, decide_eq_true_eq] at read
        have whole := Denotes.full read.1 read.2
        rwa [intercalate_fields] at whole
    | some parts =>
        simp only [found, compressed_eq_some] at read
        obtain ⟨leftWords, rightWords, groups, row, missing, rfl⟩ := read
        have whole := Denotes.compressed groups row missing
        obtain ⟨split, -⟩ := Search.cut_eq_some found
        rw [intercalate_fields, intercalate_fields] at whole
        rw [split]
        simpa using whole
  · intro denotes
    unfold words
    cases denotes with
    | full row length =>
        have areFields := row.isField
        rw [Search.cut_twice_intercalate (fun field present => (areFields field present).1)
          fun field present => (areFields field present).2]
        dsimp only
        rw [fields_intercalate areFields, row_eq_some.mpr row, Option.filter_some, length]
        rfl
    | @compressed left right leftWords rightWords groups row missing =>
        have areFields := isField_of_groups groups
        rw [Search.cut_twice_intercalate_append (fun field present => (areFields field present).1)
          fun field present => (areFields field present).2]
        dsimp only
        rw [fields_intercalate areFields, fields_intercalate row.isField]
        exact compressed_eq_some.mpr ⟨leftWords, rightWords, groups, row, missing, rfl⟩

end Alphabet

end AddressText
