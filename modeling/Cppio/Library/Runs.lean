import Mathlib.Data.List.TakeWhile

/-!
# Runs of one value

Where a value stands several times in a row, and which of its runs in a list is
the first of the longest.  A search that goes from run to run keeps the first of
the longest among the runs that start before the place it has come to.
-/

namespace Runs

variable {α : Type}

/-- From an index on, the value stands `length` times in a row. -/
def IsRun (value : α) (list : List α) (index length : Nat) : Prop :=
  index + length ≤ list.length ∧ (list.drop index).take length = List.replicate length value

theorem isRun_iff
    {value : α} {list : List α} {index length : Nat} :
    IsRun value list index length ↔
      index + length ≤ list.length ∧
        ∀ place, index ≤ place → place < index + length → list[place]? = some value := by
  refine and_congr_right fun inside => ?_
  constructor
  · intro same place behind before
    have here : ((list.drop index).take length)[place - index]? =
        (List.replicate length value)[place - index]? := by rw [same]
    rw [List.getElem?_take_of_lt (by omega), List.getElem?_drop,
      List.getElem?_replicate_of_lt (by omega)] at here
    rwa [Nat.add_sub_cancel' behind] at here
  · intro all
    apply List.ext_getElem?
    intro place
    by_cases before : place < length
    · rw [List.getElem?_take_of_lt before, List.getElem?_drop,
        List.getElem?_replicate_of_lt before]
      exact all (index + place) (Nat.le_add_right _ _) (by omega)
    · rw [List.getElem?_eq_none (by simp only [List.length_take]; omega),
        List.getElem?_eq_none (by simp only [List.length_replicate]; omega)]

theorem isRun_zero
    {value : α} {list : List α} {index : Nat}
    (inside : index ≤ list.length) :
    IsRun value list index 0 :=
  ⟨inside, rfl⟩

/-- A run cuts its list into three. -/
theorem IsRun.split
    {value : α} {list : List α} {index length : Nat}
    (isRun : IsRun value list index length) :
    list = list.take index ++ (List.replicate length value ++ list.drop (index + length)) := by
  rw [← isRun.2, ← List.drop_drop, List.take_append_drop, List.take_append_drop]

/-- Where the value stops, another one stands or nothing. -/
theorem getElem?_length_takeWhile_ne
    [DecidableEq α]
    (value : α) (list : List α) :
    list[(list.takeWhile (fun element => decide (element = value))).length]? ≠ some value := by
  induction list with
  | nil => simp
  | cons head tail inductionHypothesis =>
      by_cases same : head = value
      · rw [List.takeWhile_cons_of_pos (by simpa using same), List.length_cons,
          List.getElem?_cons_succ]
        exact inductionHypothesis
      · rw [List.takeWhile_cons_of_neg (by simpa using same)]
        simpa using same

/-- A function that tells the value from all others keeps its runs. -/
theorem isRun_map
    {β : Type} {value : α} {convert : α → β}
    (injective : Function.Injective convert)
    (list : List α) (index length : Nat) :
    IsRun (convert value) (list.map convert) index length ↔ IsRun value list index length := by
  rw [isRun_iff, isRun_iff, List.length_map]
  refine and_congr_right fun _ => forall_congr' fun place => forall_congr' fun _ =>
    forall_congr' fun _ => ?_
  rw [List.getElem?_map, Option.map_eq_some_iff]
  constructor
  · rintro ⟨found, here, same⟩
    rwa [← injective same]
  · exact fun here => ⟨value, here, rfl⟩

/-- No run is longer, and none of this length starts before. -/
structure LeftmostLongest (value : α) (list : List α) (index length : Nat) : Prop where
  isRun : IsRun value list index length
  longest : ∀ {index' length'}, IsRun value list index' length' → length' ≤ length
  leftmost : ∀ {index'}, IsRun value list index' length → 0 < length → index ≤ index'

/-- There is one such run. -/
theorem LeftmostLongest.unique
    {value : α} {list : List α} {index length index' length' : Nat}
    (first : LeftmostLongest value list index length)
    (second : LeftmostLongest value list index' length')
    (nonempty : 0 < length) :
    index = index' ∧ length = length' := by
  obtain rfl : length = length' :=
    Nat.le_antisymm (second.longest first.isRun) (first.longest second.isRun)
  exact ⟨Nat.le_antisymm (first.leftmost second.isRun nonempty)
    (second.leftmost first.isRun nonempty), rfl⟩

theorem leftmostLongest_map
    {β : Type} {value : α} {convert : α → β}
    (injective : Function.Injective convert)
    {list : List α} {index length : Nat}
    (isFirst : LeftmostLongest value list index length) :
    LeftmostLongest (convert value) (list.map convert) index length where
  isRun := (isRun_map injective list index length).mpr isFirst.isRun
  longest other := isFirst.longest ((isRun_map injective list _ _).mp other)
  leftmost other := isFirst.leftmost ((isRun_map injective list _ _).mp other)

/-! ## The search -/

/-- The first of the longest among the runs that start before a place. -/
structure FoundBefore (value : α) (list : List α) (place index length : Nat) : Prop where
  isRun : IsRun value list index length
  before : index ≤ place
  longest : ∀ {index' length'}, IsRun value list index' length' → index' < place →
    length' ≤ length
  leftmost : ∀ {index'}, IsRun value list index' length → index' < place → 0 < length →
    index ≤ index'

theorem foundBefore_zero (value : α) (list : List α) : FoundBefore value list 0 0 0 where
  isRun := isRun_zero (Nat.zero_le _)
  before := Nat.le_refl _
  longest _ before := absurd before (Nat.not_lt_zero _)
  leftmost _ before := absurd before (Nat.not_lt_zero _)

namespace FoundBefore

variable {value : α} {list : List α} {place index length : Nat}

/-- Another value starts no run. -/
theorem skip
    (found : FoundBefore value list place index length)
    (other : list[place]? ≠ some value) :
    FoundBefore value list (place + 1) index length where
  isRun := found.isRun
  before := Nat.le_succ_of_le found.before
  longest := by
    intro index' length' isRun before
    by_cases here : index' = place
    · subst here
      by_contra longer
      exact other ((isRun_iff.mp isRun).2 index' (Nat.le_refl _) (by omega))
    · exact found.longest isRun (by omega)
  leftmost := by
    intro index' isRun before nonempty
    by_cases here : index' = place
    · subst here
      exact absurd ((isRun_iff.mp isRun).2 index' (Nat.le_refl _) (by omega)) other
    · exact found.leftmost isRun (by omega) nonempty

/-- The run from a place on, to where it stops. -/
theorem run
    {stop : Nat}
    (found : FoundBefore value list place index length)
    (isRun : IsRun value list place (stop - place))
    (behind : place ≤ stop)
    (stops : list[stop]? ≠ some value) :
    FoundBefore value list (stop + 1)
      (if stop - place > length then place else index)
      (if stop - place > length then stop - place else length) := by
  have ends : ∀ {index' length'}, IsRun value list index' length' → index' < stop + 1 →
      index' + length' ≤ stop := by
    intro index' length' isRun before
    by_contra beyond
    exact stops ((isRun_iff.mp isRun).2 stop (by omega) (by omega))
  have shorter : ∀ {index' length'}, IsRun value list index' length' → index' < stop + 1 →
      length' ≤ length ∨ place ≤ index' ∧ length' ≤ stop - place := by
    intro index' length' isRun before
    by_cases earlier : index' < place
    · exact Or.inl (found.longest isRun earlier)
    · have fits := ends isRun before
      exact Or.inr ⟨by omega, by omega⟩
  have startsBefore := found.before
  split_ifs with longer
  · refine ⟨isRun, by omega, fun other before => ?_, fun other before _ => ?_⟩
    · rcases shorter other before with short | ⟨-, short⟩
      · omega
      · exact short
    · rcases shorter other before with short | ⟨later, -⟩
      · omega
      · exact later
  · refine ⟨found.isRun, by omega, fun other before => ?_, fun other before nonempty => ?_⟩
    · rcases shorter other before with short | ⟨-, short⟩
      · exact short
      · omega
    · rename_i index'
      by_cases earlier : index' < place
      · exact found.leftmost other earlier nonempty
      · omega

/-- At the end every run has been seen. -/
theorem leftmostLongest
    (found : FoundBefore value list place index length)
    (atEnd : list.length ≤ place) :
    LeftmostLongest value list index length where
  isRun := found.isRun
  longest := by
    intro index' length' isRun
    by_cases before : index' < place
    · exact found.longest isRun before
    · have inside := isRun.1
      omega
  leftmost := by
    intro index' isRun nonempty
    have inside := isRun.1
    exact found.leftmost isRun (by omega) nonempty

end FoundBefore

end Runs
