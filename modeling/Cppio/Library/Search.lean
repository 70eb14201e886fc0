import Mathlib.Data.List.Basic
import Mathlib.Data.List.Infix
import Mathlib.Tactic.ByContra

/-!
# Searching a list for a pattern

The first place at which a pattern occurs, and the cut of a list there.  The
lemmas about patterns of one and of two elements say when a separator written
between two parts is the one that a search finds.  The last place at which an
element stands is the index from which a search backwards cuts.
-/

namespace Search

variable {α : Type} [DecidableEq α]

/-- The first index at which the pattern occurs. -/
def firstIndex (pattern : List α) : List α → Option Nat
  | [] => if pattern = [] then some 0 else none
  | head :: tail =>
      if pattern <+: head :: tail then some 0
      else (firstIndex pattern tail).map (· + 1)

/-- The parts of a list before and after the first occurrence of the pattern. -/
def cut (pattern list : List α) : Option (List α × List α) :=
  (firstIndex pattern list).map fun index =>
    (list.take index, list.drop (index + pattern.length))

/-- No occurrence of the pattern in `list` starts before `index`. -/
def NoneBefore (pattern list : List α) (index : Nat) : Prop :=
  ∀ earlier < index, ¬pattern <+: list.drop earlier

theorem firstIndex_eq_some
    {pattern list : List α} {index : Nat}
    (found : firstIndex pattern list = some index) :
    pattern <+: list.drop index ∧ NoneBefore pattern list index := by
  induction list generalizing index with
  | nil =>
      simp only [firstIndex, Option.ite_none_right_eq_some, Option.some.injEq] at found
      obtain ⟨rfl, rfl⟩ := found
      exact ⟨by simp, fun earlier less => by omega⟩
  | cons head tail inductionHypothesis =>
      unfold firstIndex at found
      split_ifs at found with here
      · obtain rfl := Option.some.inj found
        exact ⟨here, fun earlier less => by omega⟩
      · obtain ⟨position, foundTail, rfl⟩ := Option.map_eq_some_iff.mp found
        obtain ⟨occurs, none⟩ := inductionHypothesis foundTail
        refine ⟨by simpa using occurs, fun earlier less => ?_⟩
        cases earlier with
        | zero => simpa using here
        | succ earlier => simpa using none earlier (by omega)

theorem firstIndex_eq_none
    {pattern list : List α}
    (missing : firstIndex pattern list = none) :
    ¬pattern <:+: list := by
  induction list with
  | nil =>
      unfold firstIndex at missing
      split_ifs at missing with empty
      simpa using empty
  | cons head tail inductionHypothesis =>
      unfold firstIndex at missing
      split_ifs at missing with here
      rw [List.infix_cons_iff]
      rintro (first | later)
      · exact here first
      · exact inductionHypothesis (by simpa using missing) later

/-- An occurrence with none before it is the one that is found. -/
theorem firstIndex_append
    {pattern before after : List α}
    (none : NoneBefore pattern (before ++ pattern ++ after) before.length) :
    firstIndex pattern (before ++ pattern ++ after) = some before.length := by
  induction before with
  | nil =>
      cases pattern with
      | nil => cases after <;> simp [firstIndex]
      | cons head tail => simp [firstIndex]
  | cons head before inductionHypothesis =>
      have notHere : ¬pattern <+: head :: (before ++ pattern ++ after) := by
        simpa using none 0 (by simp)
      have noneTail : NoneBefore pattern (before ++ pattern ++ after) before.length := by
        intro earlier less
        simpa using none (earlier + 1) (by simp; omega)
      change firstIndex pattern (head :: (before ++ pattern ++ after)) = _
      rw [firstIndex, if_neg notHere, inductionHypothesis noneTail]
      rfl

theorem cut_eq_none
    {pattern list : List α}
    (missing : cut pattern list = none) :
    ¬pattern <:+: list :=
  firstIndex_eq_none (by simpa [cut] using missing)

/-- A cut splits the list at an occurrence with none before it. -/
theorem cut_eq_some
    {pattern list before after : List α}
    (split : cut pattern list = some (before, after)) :
    list = before ++ pattern ++ after ∧ NoneBefore pattern list before.length := by
  obtain ⟨index, found, parts⟩ := Option.map_eq_some_iff.mp split
  obtain ⟨rfl, rfl⟩ := Prod.mk.inj parts
  obtain ⟨⟨rest, occurs⟩, none⟩ := firstIndex_eq_some found
  have short : (list.take index).length ≤ index := by
    rw [List.length_take]
    exact Nat.min_le_left _ _
  refine ⟨?_, fun earlier less => none earlier (by omega)⟩
  have after : rest = list.drop (index + pattern.length) := by
    rw [← List.drop_drop, ← occurs, List.drop_left]
  rw [← after, List.append_assoc, occurs, List.take_append_drop]

theorem cut_append
    {pattern before after : List α}
    (none : NoneBefore pattern (before ++ pattern ++ after) before.length) :
    cut pattern (before ++ pattern ++ after) = some (before, after) := by
  unfold cut
  rw [firstIndex_append none]
  simp only [Option.map_some, List.append_assoc, List.take_left', Option.some.injEq,
    Prod.mk.injEq, true_and]
  rw [← List.append_assoc, ← List.length_append, List.drop_left]

/-! ## Separators of one element -/

theorem noneBefore_singleton
    {separator : α} {before : List α}
    (absent : separator ∉ before)
    (after : List α) :
    NoneBefore [separator] (before ++ [separator] ++ after) before.length := by
  rintro earlier less ⟨rest, occurs⟩
  apply absent
  rw [List.append_assoc, List.drop_append_of_le_length less.le] at occurs
  cases tail : before.drop earlier with
  | nil => simp at tail; omega
  | cons head rest' =>
      rw [tail] at occurs
      obtain ⟨rfl, -⟩ := List.cons.inj occurs
      exact List.mem_of_mem_drop (tail ▸ List.mem_cons_self)

theorem cut_singleton_append
    {separator : α} {before : List α}
    (absent : separator ∉ before)
    (after : List α) :
    cut [separator] (before ++ separator :: after) = some (before, after) := by
  have split := cut_append (noneBefore_singleton absent after)
  simpa using split

theorem cut_singleton_eq_none
    {separator : α} {list : List α} :
    cut [separator] list = none ↔ separator ∉ list := by
  constructor
  · intro missing present
    exact cut_eq_none missing ((List.singleton_infix_iff _ _).mpr present)
  · intro absent
    cases split : cut [separator] list with
    | none => rfl
    | some parts =>
        obtain ⟨rfl, -⟩ := cut_eq_some split
        simp at absent

theorem cut_singleton_eq_some
    {separator : α} {list before after : List α}
    (split : cut [separator] list = some (before, after)) :
    list = before ++ separator :: after ∧ separator ∉ before := by
  obtain ⟨parts, none⟩ := cut_eq_some split
  refine ⟨by simpa using parts, fun present => ?_⟩
  obtain ⟨first, second, rfl⟩ := List.append_of_mem present
  refine none first.length (by simp) ⟨second ++ separator :: after, ?_⟩
  simp [parts]

/-! ## Separators of two different elements -/

omit [DecidableEq α] in
/-- A part without the separator that is followed by it has no earlier
occurrence, not even one across the end of the part. -/
theorem noneBefore_pair
    {first second : α} {before : List α}
    (different : first ≠ second)
    (absent : ¬[first, second] <:+: before)
    (after : List α) :
    NoneBefore [first, second] (before ++ [first, second] ++ after) before.length := by
  rintro earlier less ⟨rest, occurs⟩
  rw [List.append_assoc, List.drop_append_of_le_length less.le] at occurs
  cases tail : before.drop earlier with
  | nil => simp at tail; omega
  | cons head tail' =>
      rw [tail] at occurs
      cases tail' with
      | nil =>
          simp only [List.cons_append, List.nil_append, List.cons.injEq] at occurs
          exact different occurs.2.1.symm
      | cons next tail'' =>
          simp only [List.cons_append, List.cons.injEq] at occurs
          obtain ⟨rfl, rfl, -⟩ := occurs
          apply absent
          refine ⟨before.take earlier, tail'', ?_⟩
          rw [List.append_assoc]
          change before.take earlier ++ (first :: second :: tail'') = before
          rw [← tail, List.take_append_drop]

theorem cut_pair_append
    {first second : α} {before : List α}
    (different : first ≠ second)
    (absent : ¬[first, second] <:+: before)
    (after : List α) :
    cut [first, second] (before ++ first :: second :: after) = some (before, after) := by
  have split := cut_append (noneBefore_pair different absent after)
  simpa using split

theorem cut_pair_eq_some
    {first second : α} {list before after : List α}
    (split : cut [first, second] list = some (before, after)) :
    list = before ++ first :: second :: after ∧ ¬[first, second] <:+: before := by
  obtain ⟨parts, none⟩ := cut_eq_some split
  refine ⟨by simpa using parts, ?_⟩
  rintro ⟨front, back, rfl⟩
  refine none front.length (by simp) ⟨back ++ first :: second :: after, ?_⟩
  simp [parts]

theorem cut_pair_length_lt
    {first second : α} {list before after : List α}
    (split : cut [first, second] list = some (before, after)) :
    after.length < list.length := by
  obtain ⟨rfl, -⟩ := cut_pair_eq_some split
  simp
  omega

/-- The pieces between the separators.  A separator at the very end starts no
further piece. -/
def pieces (first second : α) (list : List α) : List (List α) :=
  if list = [] then []
  else
    match _split : cut [first, second] list with
    | none => [list]
    | some (before, after) => before :: pieces first second after
termination_by list.length
decreasing_by exact cut_pair_length_lt _split

@[simp] theorem pieces_nil (first second : α) :
    pieces first second [] = [] := by
  rw [pieces, if_pos rfl]

theorem pieces_of_cut_eq_none
    {first second : α} {list : List α}
    (nonempty : list ≠ [])
    (missing : cut [first, second] list = none) :
    pieces first second list = [list] := by
  rw [pieces, if_neg nonempty]
  split
  · rfl
  · simp_all

theorem pieces_of_cut_eq_some
    {first second : α} {list before after : List α}
    (split_ : cut [first, second] list = some (before, after)) :
    pieces first second list = before :: pieces first second after := by
  have nonempty : list ≠ [] := by
    obtain ⟨rfl, -⟩ := cut_pair_eq_some split_
    simp
  rw [pieces, if_neg nonempty]
  split <;> simp_all

theorem pieces_ne_nil
    {first second : α} {list : List α}
    (nonempty : list ≠ []) :
    pieces first second list ≠ [] := by
  rw [pieces, if_neg nonempty]
  split <;> exact List.cons_ne_nil _ _

/-! ## Pieces joined by separators -/

omit [DecidableEq α] in
/-- A separator does not arise where two parts meet at another element. -/
theorem not_pair_infix_append_cons
    {first second middle : α} {before after : List α}
    (notFirst : middle ≠ first)
    (notSecond : middle ≠ second)
    (absentBefore : ¬[first, second] <:+: before)
    (absentAfter : ¬[first, second] <:+: after) :
    ¬[first, second] <:+: before ++ middle :: after := by
  induction before with
  | nil =>
      rw [List.nil_append, List.infix_cons_iff]
      rintro (here | later)
      · exact notFirst (List.cons_prefix_cons.mp here).1.symm
      · exact absentAfter later
  | cons head tail inductionHypothesis =>
      rw [List.infix_cons_iff, not_or] at absentBefore
      rw [List.cons_append, List.infix_cons_iff]
      rintro (here | later)
      · cases tail with
        | nil =>
            obtain ⟨-, next⟩ := List.cons_prefix_cons.mp here
            exact notSecond (List.cons_prefix_cons.mp next).1.symm
        | cons next rest =>
            apply absentBefore.1
            simpa only [List.cons_append, List.cons_prefix_cons, List.nil_prefix] using here
      · exact inductionHypothesis absentBefore.2 later

omit [DecidableEq α] in
/-- A join contains what its separator and its parts contain. -/
theorem not_mem_intercalate
    {element separator : α} {parts : List (List α)}
    (different : element ≠ separator)
    (absent : ∀ part ∈ parts, element ∉ part) :
    element ∉ [separator].intercalate parts := by
  induction parts with
  | nil => exact List.not_mem_nil
  | cons part rest inductionHypothesis =>
      have later := inductionHypothesis fun other present =>
        absent other (List.mem_cons_of_mem part present)
      have here := absent part List.mem_cons_self
      cases rest with
      | nil => rwa [List.intercalate_singleton]
      | cons next rest =>
          rw [List.intercalate_cons_cons, List.append_assoc, List.mem_append, List.mem_append,
            List.mem_singleton]
          rintro (inPart | isSeparator | inRest)
          · exact here inPart
          · exact different isSeparator
          · exact later inRest

omit [DecidableEq α] in
/-- No pair arises in a join by an element that belongs to neither place of it. -/
theorem not_pair_infix_intercalate
    {first second middle : α} {parts : List (List α)}
    (notFirst : middle ≠ first)
    (notSecond : middle ≠ second)
    (absent : ∀ part ∈ parts, ¬[first, second] <:+: part) :
    ¬[first, second] <:+: [middle].intercalate parts := by
  induction parts with
  | nil => simp
  | cons part rest inductionHypothesis =>
      have later := inductionHypothesis fun other present =>
        absent other (List.mem_cons_of_mem part present)
      have here := absent part List.mem_cons_self
      cases rest with
      | nil => rwa [List.intercalate_singleton]
      | cons next rest =>
          rw [List.intercalate_cons_cons, List.append_assoc, List.singleton_append]
          exact not_pair_infix_append_cons notFirst notSecond here later

/-- Nonempty parts without the separator are the pieces of their join. -/
theorem pieces_intercalate
    {first second : α} {parts : List (List α)}
    (different : first ≠ second)
    (nonempty : ∀ part ∈ parts, part ≠ [])
    (absent : ∀ part ∈ parts, ¬[first, second] <:+: part) :
    pieces first second ([first, second].intercalate parts) = parts := by
  induction parts with
  | nil => simp
  | cons part rest inductionHypothesis =>
      have restPieces := inductionHypothesis
        (fun other present => nonempty other (by simp [present]))
        (fun other present => absent other (by simp [present]))
      have partAbsent := absent part (by simp)
      cases rest with
      | nil =>
          rw [List.intercalate_singleton]
          apply pieces_of_cut_eq_none (nonempty part (by simp))
          cases found : cut [first, second] part with
          | none => rfl
          | some cuts =>
              obtain ⟨parted, -⟩ := cut_eq_some found
              exact absurd ⟨cuts.1, cuts.2, parted.symm⟩ partAbsent
      | cons next rest =>
          rw [List.intercalate_cons_cons, List.append_assoc, List.cons_append, List.cons_append,
            List.nil_append, pieces_of_cut_eq_some (cut_pair_append different partAbsent _),
            restPieces]

/-- A separator after the last part starts no piece. -/
theorem pieces_intercalate_append
    {first second : α} {parts : List (List α)}
    (different : first ≠ second)
    (some : parts ≠ [])
    (absent : ∀ part ∈ parts, ¬[first, second] <:+: part) :
    pieces first second ([first, second].intercalate parts ++ [first, second]) = parts := by
  induction parts with
  | nil => exact absurd rfl some
  | cons part rest inductionHypothesis =>
      have partAbsent := absent part (by simp)
      cases rest with
      | nil =>
          rw [List.intercalate_singleton,
            pieces_of_cut_eq_some (cut_pair_append different partAbsent []), pieces_nil]
      | cons next rest =>
          have restPieces := inductionHypothesis (List.cons_ne_nil next rest)
            (fun other present => absent other (List.mem_cons_of_mem part present))
          rw [List.intercalate_cons_cons, List.append_assoc, List.append_assoc, List.cons_append,
            List.cons_append, List.nil_append,
            pieces_of_cut_eq_some (cut_pair_append different partAbsent _), restPieces]

/-- A separator ends a piece, whatever stands before it. -/
theorem pieces_append_pair
    {first second : α}
    (different : first ≠ second)
    (before after : List α) :
    pieces first second (before ++ first :: second :: after) =
      pieces first second (before ++ [first, second]) ++ pieces first second after := by
  induction length : before.length using Nat.strong_induction_on generalizing before with
  | _ length inductionHypothesis =>
      subst length
      cases found : cut [first, second] before with
      | none =>
          have absent := cut_eq_none found
          rw [pieces_of_cut_eq_some (cut_pair_append different absent after),
            pieces_of_cut_eq_some (cut_pair_append different absent [])]
          simp
      | some parts =>
          obtain ⟨piece, rest⟩ := parts
          obtain ⟨rfl, absent⟩ := cut_pair_eq_some found
          have shorter := inductionHypothesis rest.length (by simp; omega) rest rfl
          have one : ∀ tail, pieces first second (piece ++ first :: second :: tail) =
              piece :: pieces first second tail := fun tail =>
            pieces_of_cut_eq_some (cut_pair_append different absent tail)
          simp only [List.append_assoc, List.cons_append, one, shorter]

/-- Joining the pieces of a text that ends with a separator gives back what is
before it. -/
theorem intercalate_pieces
    {first second : α}
    (different : first ≠ second)
    (list : List α) :
    [first, second].intercalate (pieces first second (list ++ [first, second])) = list := by
  induction length : list.length using Nat.strong_induction_on generalizing list with
  | _ length inductionHypothesis =>
      subst length
      cases found : cut [first, second] list with
      | none =>
          rw [pieces_of_cut_eq_some (cut_pair_append different (cut_eq_none found) [])]
          simp
      | some parts =>
          obtain ⟨piece, rest⟩ := parts
          obtain ⟨rfl, absent⟩ := cut_pair_eq_some found
          have shorter := inductionHypothesis rest.length (by simp; omega) rest rfl
          have nonempty : pieces first second (rest ++ [first, second]) ≠ [] :=
            pieces_ne_nil (by simp)
          obtain ⟨next, others, restPieces⟩ := List.exists_cons_of_ne_nil nonempty
          rw [List.append_assoc, List.cons_append, List.cons_append,
            pieces_of_cut_eq_some (cut_pair_append different absent _), restPieces,
            List.intercalate_cons_cons, ← restPieces, shorter]
          simp

/-- Every piece is without the separator. -/
theorem not_infix_of_mem_pieces
    {first second : α} {list part : List α}
    (present : part ∈ pieces first second list) :
    ¬[first, second] <:+: part := by
  induction length : list.length using Nat.strong_induction_on generalizing list with
  | _ length inductionHypothesis =>
      subst length
      by_cases isEmpty : list = []
      · simp [isEmpty] at present
      · cases found : cut [first, second] list with
        | none =>
            rw [pieces_of_cut_eq_none isEmpty found, List.mem_singleton] at present
            exact present ▸ cut_eq_none found
        | some parts =>
            obtain ⟨before, after⟩ := parts
            rw [pieces_of_cut_eq_some found, List.mem_cons] at present
            rcases present with rfl | later
            · exact (cut_pair_eq_some found).2
            · exact inductionHypothesis _ (cut_pair_length_lt found) later rfl

/-! ## Doubled separators -/

/-- A doubled separator is found at the first separator when the second one
follows. -/
theorem cut_double_append
    {first second : α} {before : List α}
    (different : first ≠ second)
    (absent : ¬[first, second] <:+: before)
    (after : List α) :
    cut [first, second, first, second]
        (before ++ first :: second :: first :: second :: after) =
      some (before, after) := by
  have none : NoneBefore [first, second, first, second]
      (before ++ [first, second, first, second] ++ after) before.length := by
    intro earlier less occurs
    have single := noneBefore_pair different absent (first :: second :: after)
    apply single earlier less
    have pairPrefix : [first, second] <+: [first, second, first, second] :=
      ⟨[first, second], rfl⟩
    simpa using pairPrefix.trans occurs
  simpa using cut_append none

/-- A doubled separator is found later when none follows the first separator. -/
theorem cut_double_later
    {first second : α} {before list middle after : List α}
    (different : first ≠ second)
    (absent : ¬[first, second] <:+: before)
    (single : ¬[first, second] <+: list)
    (later : cut [first, second, first, second] list = some (middle, after)) :
    cut [first, second, first, second] (before ++ first :: second :: list) =
      some (before ++ first :: second :: middle, after) := by
  obtain ⟨parted, noneMiddle⟩ := cut_eq_some later
  have none : NoneBefore [first, second, first, second]
      (before ++ first :: second :: middle ++ [first, second, first, second] ++ after)
      (before ++ first :: second :: middle).length := by
    have whole : before ++ first :: second :: middle ++ [first, second, first, second] ++ after =
        before ++ first :: second :: list := by simp [parted]
    rw [whole]
    intro earlier less occurs
    rcases Nat.lt_trichotomy earlier before.length with inside | rfl | outside
    · have pairs := noneBefore_pair different absent list
      apply pairs earlier inside
      have pairPrefix : [first, second] <+: [first, second, first, second] :=
        ⟨[first, second], rfl⟩
      simpa using pairPrefix.trans occurs
    · rw [List.drop_left, List.cons_prefix_cons, List.cons_prefix_cons] at occurs
      exact single occurs.2.2
    · obtain ⟨offset, rfl⟩ := Nat.exists_eq_add_of_lt outside
      rw [Nat.add_assoc, ← List.drop_drop, List.drop_left] at occurs
      cases offset with
      | zero => exact different (List.cons_prefix_cons.mp occurs).1
      | succ offset =>
          simp only [List.length_append, List.length_cons] at less
          exact noneMiddle offset (by omega) (by simpa using occurs)
  have found := cut_append none
  rw [parted]
  simpa using found

omit [DecidableEq α] in
/-- A nonempty part without the separator does not start with it, even when
the part is followed by one. -/
theorem not_pair_prefix_append_cons
    {first second : α} {part : List α}
    (different : first ≠ second)
    (nonempty : part ≠ [])
    (absent : ¬[first, second] <:+: part)
    (after : List α) :
    ¬[first, second] <+: part ++ first :: after := by
  intro occurs
  cases part with
  | nil => exact nonempty rfl
  | cons head tail =>
      obtain ⟨rfl, next⟩ := List.cons_prefix_cons.mp occurs
      cases tail with
      | nil => exact different (List.cons_prefix_cons.mp next).1.symm
      | cons other rest =>
          obtain ⟨rfl, -⟩ := List.cons_prefix_cons.mp next
          exact absent ⟨[], rest, rfl⟩

/-- The doubled separator after nonempty parts is the first one in the text. -/
theorem cut_double_intercalate
    {first second : α} {parts : List (List α)}
    (different : first ≠ second)
    (some_ : parts ≠ [])
    (nonempty : ∀ part ∈ parts, part ≠ [])
    (absent : ∀ part ∈ parts, ¬[first, second] <:+: part)
    (after : List α) :
    cut [first, second, first, second]
        ([first, second].intercalate parts ++ first :: second :: first :: second :: after) =
      some ([first, second].intercalate parts, after) := by
  induction parts with
  | nil => exact absurd rfl some_
  | cons part rest inductionHypothesis =>
      have partAbsent := absent part (by simp)
      cases rest with
      | nil =>
          rw [List.intercalate_singleton]
          exact cut_double_append different partAbsent after
      | cons next rest =>
          have later := inductionHypothesis (by simp)
            (fun other present => nonempty other (by simp [present]))
            (fun other present => absent other (by simp [present]))
          obtain ⟨tail, starts⟩ : ∃ tail,
              [first, second].intercalate (next :: rest) ++
                first :: second :: first :: second :: after = next ++ first :: tail := by
            cases rest with
            | nil => exact ⟨_, by rw [List.intercalate_singleton]⟩
            | cons third rest =>
                rw [List.intercalate_cons_cons, List.append_assoc, List.append_assoc]
                exact ⟨_, rfl⟩
          have single := not_pair_prefix_append_cons different (nonempty next (by simp))
            (absent next (by simp)) tail
          rw [← starts] at single
          have found := cut_double_later different partAbsent single later
          rw [List.intercalate_cons_cons, List.append_assoc, List.append_assoc]
          simpa using found

/-! ## One separator twice -/

theorem cut_cons
    {pattern tail : List α} {head : α}
    (notHere : ¬pattern <+: head :: tail) :
    cut pattern (head :: tail) =
      (cut pattern tail).map fun parts => (head :: parts.1, parts.2) := by
  rw [cut, firstIndex, if_neg notHere, Option.map_map, cut, Option.map_map]
  congr 1
  funext index
  simp only [Function.comp_apply, List.take_succ_cons, Nat.add_right_comm index 1,
    List.drop_succ_cons]

/-- A part without the first element of the pattern is passed over. -/
theorem cut_append_of_notMem
    {separator : α} {pattern part : List α}
    (absent : separator ∉ part)
    (list : List α) :
    cut (separator :: pattern) (part ++ list) =
      (cut (separator :: pattern) list).map fun parts => (part ++ parts.1, parts.2) := by
  induction part with
  | nil => simp
  | cons head tail inductionHypothesis =>
      rw [List.mem_cons, not_or] at absent
      have notHere : ¬separator :: pattern <+: head :: (tail ++ list) := fun occurs =>
        absent.1 (List.cons_prefix_cons.mp occurs).1
      rw [List.cons_append, cut_cons notHere, inductionHypothesis absent.2, Option.map_map]
      rfl

/-- The separator between two parts does not start a doubled one. -/
theorem cut_twice_append
    {separator : α} {part list : List α}
    (absent : separator ∉ part)
    (notNext : ¬[separator] <+: list) :
    cut [separator, separator] (part ++ separator :: list) =
      (cut [separator, separator] list).map fun parts =>
        (part ++ separator :: parts.1, parts.2) := by
  have notHere : ¬[separator, separator] <+: separator :: list := fun occurs =>
    notNext (List.cons_prefix_cons.mp occurs).2
  rw [cut_append_of_notMem absent, cut_cons notHere, Option.map_map]
  rfl

omit [DecidableEq α] in
/-- Nonempty parts without the separator do not start with it, joined. -/
theorem not_prefix_intercalate_append
    {separator : α} {part : List α} {parts : List (List α)}
    (nonempty : part ≠ [])
    (absent : separator ∉ part)
    (after : List α) :
    ¬[separator] <+: [separator].intercalate (part :: parts) ++ after := by
  obtain ⟨head, tail, rfl⟩ := List.exists_cons_of_ne_nil nonempty
  obtain ⟨rest, whole⟩ : ∃ rest,
      [separator].intercalate ((head :: tail) :: parts) ++ after = head :: rest := by
    cases parts with
    | nil => exact ⟨_, by rw [List.intercalate_singleton]; rfl⟩
    | cons next parts => exact ⟨_, by rw [List.intercalate_cons_cons]; rfl⟩
  rw [whole]
  intro occurs
  obtain ⟨rfl, -⟩ := List.cons_prefix_cons.mp occurs
  exact absent List.mem_cons_self

/-- A doubled separator after nonempty parts is the first one in the text. -/
theorem cut_twice_intercalate_append
    {separator : α} {parts : List (List α)}
    (nonempty : ∀ part ∈ parts, part ≠ [])
    (absent : ∀ part ∈ parts, separator ∉ part)
    (after : List α) :
    cut [separator, separator] ([separator].intercalate parts ++ separator :: separator :: after) =
      some ([separator].intercalate parts, after) := by
  have here : cut [separator, separator] (separator :: separator :: after) = some ([], after) := by
    have none : NoneBefore [separator, separator]
        ([] ++ [separator, separator] ++ after) ([] : List α).length := fun earlier less => by
      exact absurd less (Nat.not_lt_zero _)
    exact cut_append none
  induction parts with
  | nil => exact here
  | cons part parts inductionHypothesis =>
      have later := inductionHypothesis
        (fun other present => nonempty other (by simp [present]))
        (fun other present => absent other (by simp [present]))
      have partAbsent := absent part (by simp)
      cases parts with
      | nil =>
          rw [List.intercalate_singleton, cut_append_of_notMem partAbsent, here]
          simp
      | cons next parts =>
          have notNext : ¬[separator] <+:
              [separator].intercalate (next :: parts) ++ separator :: separator :: after :=
            not_prefix_intercalate_append (nonempty next (by simp)) (absent next (by simp)) _
          rw [List.intercalate_cons_cons, List.append_assoc, List.append_assoc,
            List.singleton_append, cut_twice_append partAbsent notNext, later]
          simp

/-- There is no doubled separator in nonempty parts. -/
theorem cut_twice_intercalate
    {separator : α} {parts : List (List α)}
    (nonempty : ∀ part ∈ parts, part ≠ [])
    (absent : ∀ part ∈ parts, separator ∉ part) :
    cut [separator, separator] ([separator].intercalate parts) = none := by
  induction parts with
  | nil => rfl
  | cons part parts inductionHypothesis =>
      have later := inductionHypothesis
        (fun other present => nonempty other (by simp [present]))
        (fun other present => absent other (by simp [present]))
      have partAbsent := absent part (by simp)
      cases parts with
      | nil =>
          rw [List.intercalate_singleton, ← List.append_nil part, cut_append_of_notMem partAbsent]
          rfl
      | cons next parts =>
          have notNext : ¬[separator] <+: [separator].intercalate (next :: parts) ++ [] :=
            not_prefix_intercalate_append (nonempty next (by simp)) (absent next (by simp)) []
          rw [List.append_nil] at notNext
          rw [List.intercalate_cons_cons, List.append_assoc, List.singleton_append,
            cut_twice_append partAbsent notNext, later]
          rfl

/-! ## The last occurrence -/

/-- The last index at which an element stands. -/
def lastIndex (element : α) : List α → Option Nat
  | [] => none
  | head :: tail =>
      match lastIndex element tail with
      | some index => some (index + 1)
      | none => if head = element then some 0 else none

theorem lastIndex_eq_none
    {element : α} {list : List α}
    (absent : element ∉ list) :
    lastIndex element list = none := by
  induction list with
  | nil => rfl
  | cons head tail inductionHypothesis =>
      rw [List.mem_cons, not_or] at absent
      rw [lastIndex, inductionHypothesis absent.2]
      exact if_neg fun same => absent.1 same.symm

theorem lastIndex_append
    {element : α} {after : List α}
    (absent : element ∉ after)
    (before : List α) :
    lastIndex element (before ++ element :: after) = some before.length := by
  induction before with
  | nil =>
      rw [List.nil_append, lastIndex, lastIndex_eq_none absent]
      exact if_pos rfl
  | cons head tail inductionHypothesis =>
      rw [List.cons_append, lastIndex, inductionHypothesis]
      rfl

/-- A list with an element is cut at its last occurrence. -/
theorem exists_last
    {element : α} {list : List α}
    (present : element ∈ list) :
    ∃ before after, list = before ++ element :: after ∧ element ∉ after := by
  induction list with
  | nil => cases present
  | cons head tail inductionHypothesis =>
      by_cases later : element ∈ tail
      · obtain ⟨before, after, rfl, absent⟩ := inductionHypothesis later
        exact ⟨head :: before, after, rfl, absent⟩
      · obtain rfl | inTail := List.mem_cons.mp present
        · exact ⟨[], tail, rfl, later⟩
        · exact absurd inTail later

/-- The last occurrence is at one place only. -/
theorem last_unique
    {element : α} {before after before' after' : List α}
    (same : before ++ element :: after = before' ++ element :: after')
    (absent : element ∉ after)
    (absent' : element ∉ after') :
    before = before' ∧ after = after' := by
  have index : some before.length = some before'.length := by
    rw [← lastIndex_append absent before, same, lastIndex_append absent' before']
  obtain ⟨sameBefore, rest⟩ := List.append_inj same (Option.some.inj index)
  exact ⟨sameBefore, (List.cons.inj rest).2⟩

end Search
