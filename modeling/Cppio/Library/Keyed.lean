import Mathlib.Data.List.Sort
import Mathlib.Order.Defs.LinearOrder

/-!
# Ordered containers keyed by part of their elements

The entries of an ordered container are kept in a list sorted by a key.  A
container with unique keys ignores an insertion whose key is taken; a container
with repeated keys puts a new entry after every entry of the same key.
-/

namespace Keyed

variable {Entry Key : Type} [LinearOrder Key]

/-- Entries in strictly increasing key order: no key occurs twice. -/
def Strict (key : Entry → Key) (entries : List Entry) : Prop :=
  entries.Pairwise fun earlier later => key earlier < key later

/-- Insertion into a container with unique keys. -/
def insertUnique (key : Entry → Key) (entry : Entry) : List Entry → List Entry
  | [] => [entry]
  | head :: tail =>
      if key entry < key head then entry :: head :: tail
      else if key head < key entry then head :: insertUnique key entry tail
      else head :: tail

/-- An entry with a new key is added, and nothing else changes. -/
theorem insertUnique_perm
    {key : Entry → Key}
    {entry : Entry}
    {entries : List Entry}
    (absent : ∀ other ∈ entries, key other ≠ key entry) :
    (insertUnique key entry entries).Perm (entry :: entries) := by
  induction entries with
  | nil => exact List.Perm.refl _
  | cons head tail inductionHypothesis =>
      have different : key head ≠ key entry := absent head (by simp)
      have restPerm := inductionHypothesis fun other present =>
        absent other (by simp [present])
      unfold insertUnique
      split_ifs with before after
      · exact List.Perm.refl _
      · exact (restPerm.cons head).trans (List.Perm.swap entry head tail)
      · exact absurd (le_antisymm (not_lt.mp before) (not_lt.mp after)) different

/-- An entry whose key is taken is dropped. -/
theorem insertUnique_eq_self
    {key : Entry → Key}
    {entry other : Entry}
    {entries : List Entry}
    (strict : Strict key entries)
    (present : other ∈ entries)
    (same : key other = key entry) :
    insertUnique key entry entries = entries := by
  induction entries with
  | nil => cases present
  | cons head tail inductionHypothesis =>
      obtain ⟨headFirst, tailStrict⟩ := List.pairwise_cons.mp strict
      unfold insertUnique
      rcases List.mem_cons.mp present with rfl | inTail
      · simp [same]
      · have less : key head < key entry := same ▸ headFirst other inTail
        rw [if_neg less.asymm, if_pos less,
          inductionHypothesis tailStrict inTail]

/-- Membership after an insertion, whether or not the key was taken. -/
theorem mem_of_mem_insertUnique
    {key : Entry → Key}
    {entry other : Entry}
    {entries : List Entry}
    (present : other ∈ insertUnique key entry entries) :
    other = entry ∨ other ∈ entries := by
  induction entries with
  | nil => simpa [insertUnique] using present
  | cons head tail inductionHypothesis =>
      unfold insertUnique at present
      split_ifs at present
      · simpa using present
      · rcases List.mem_cons.mp present with rfl | inTail
        · simp
        · rcases inductionHypothesis inTail with rfl | old
          · simp
          · simp [old]
      · exact Or.inr present

/-- After an insertion an entry has the new key, whether or not it was taken. -/
theorem exists_mem_insertUnique (key : Entry → Key) (entry : Entry) (entries : List Entry) :
    ∃ other ∈ insertUnique key entry entries, key other = key entry := by
  induction entries with
  | nil => exact ⟨entry, List.mem_singleton_self entry, rfl⟩
  | cons head tail inductionHypothesis =>
      unfold insertUnique
      split_ifs with before after
      · exact ⟨entry, List.mem_cons_self, rfl⟩
      · obtain ⟨other, present, same⟩ := inductionHypothesis
        exact ⟨other, List.mem_cons_of_mem head present, same⟩
      · exact ⟨head, List.mem_cons_self, le_antisymm (not_lt.mp before) (not_lt.mp after)⟩

theorem Strict.insertUnique
    {key : Entry → Key}
    {entries : List Entry}
    (strict : Strict key entries)
    (entry : Entry) :
    Strict key (insertUnique key entry entries) := by
  induction entries with
  | nil => simp [Keyed.insertUnique, Strict]
  | cons head tail inductionHypothesis =>
      obtain ⟨headFirst, tailStrict⟩ := List.pairwise_cons.mp strict
      unfold Keyed.insertUnique
      split_ifs with before after
      · refine List.pairwise_cons.mpr ⟨fun other present => ?_, strict⟩
        rcases List.mem_cons.mp present with rfl | inTail
        · exact before
        · exact before.trans (headFirst other inTail)
      · refine List.pairwise_cons.mpr
          ⟨fun other present => ?_, inductionHypothesis tailStrict⟩
        rcases mem_of_mem_insertUnique present with rfl | old
        · exact after
        · exact headFirst other old
      · exact strict

/-- In key order, the entries up to a bound come first. -/
theorem Strict.takeWhile_eq_filter
    {key : Entry → Key}
    {entries : List Entry}
    (strict : Strict key entries)
    (bound : Key) :
    entries.takeWhile (fun entry => decide (key entry ≤ bound)) =
      entries.filter fun entry => decide (key entry ≤ bound) := by
  induction entries with
  | nil => rfl
  | cons head tail inductionHypothesis =>
      obtain ⟨headFirst, tailStrict⟩ := List.pairwise_cons.mp strict
      by_cases due : key head ≤ bound
      · simp [due, inductionHypothesis tailStrict]
      · have noneDue : tail.filter (fun entry => decide (key entry ≤ bound)) = [] := by
          rw [List.filter_eq_nil_iff]
          intro other present
          have := headFirst other present
          simp only [decide_eq_true_eq, not_le]
          exact (not_le.mp due).trans this
        simp [due, noneDue]

/-- In key order, the entries past a bound come last. -/
theorem Strict.dropWhile_eq_filter
    {key : Entry → Key}
    {entries : List Entry}
    (strict : Strict key entries)
    (bound : Key) :
    entries.dropWhile (fun entry => decide (key entry ≤ bound)) =
      entries.filter fun entry => !decide (key entry ≤ bound) := by
  induction entries with
  | nil => rfl
  | cons head tail inductionHypothesis =>
      obtain ⟨headFirst, tailStrict⟩ := List.pairwise_cons.mp strict
      by_cases due : key head ≤ bound
      · simp [due, inductionHypothesis tailStrict]
      · have allLater : tail.filter (fun entry => !decide (key entry ≤ bound)) = tail := by
          rw [List.filter_eq_self]
          intro other present
          have := headFirst other present
          simp only [Bool.not_eq_true', decide_eq_false_iff_not, not_le]
          exact (not_le.mp due).trans this
        simpa [due] using allLater.symm

/-! ## Repeated keys -/

/-- Entries in key order, where keys may repeat. -/
def Sorted (key : Entry → Key) (entries : List Entry) : Prop :=
  entries.Pairwise fun earlier later => key earlier ≤ key later

/-- Insertion after every entry whose key is at most the new one. -/
def insertLast (key : Entry → Key) (entry : Entry) (entries : List Entry) : List Entry :=
  entries.orderedInsert (fun new old => key new < key old) entry

theorem insertLast_perm (key : Entry → Key) (entry : Entry) (entries : List Entry) :
    (insertLast key entry entries).Perm (entry :: entries) :=
  List.perm_orderedInsert _ entry entries

theorem Sorted.insertLast
    {key : Entry → Key}
    {entries : List Entry}
    (sorted : Sorted key entries)
    (entry : Entry) :
    Sorted key (insertLast key entry entries) := by
  induction entries with
  | nil => simp [Keyed.insertLast, Sorted]
  | cons head tail inductionHypothesis =>
      obtain ⟨headFirst, tailSorted⟩ := List.pairwise_cons.mp sorted
      unfold Keyed.insertLast
      rw [List.orderedInsert_cons]
      split_ifs with before
      · refine List.pairwise_cons.mpr ⟨fun other present => ?_, sorted⟩
        rcases List.mem_cons.mp present with rfl | inTail
        · exact before.le
        · exact before.le.trans (headFirst other inTail)
      · refine List.pairwise_cons.mpr
          ⟨fun other present => ?_, inductionHypothesis tailSorted⟩
        rcases List.mem_cons.mp ((insertLast_perm key entry tail).mem_iff.mp present)
          with rfl | old
        · exact not_lt.mp before
        · exact headFirst other old

/-- A new entry goes between two parts of the entries. -/
theorem exists_insertLast_eq (key : Entry → Key) (entry : Entry) (entries : List Entry) :
    ∃ before after, entries = before ++ after ∧
      insertLast key entry entries = before ++ entry :: after := by
  induction entries with
  | nil => exact ⟨[], [], rfl, rfl⟩
  | cons head tail inductionHypothesis =>
      obtain ⟨before, after, rfl, inserted⟩ := inductionHypothesis
      unfold insertLast at inserted ⊢
      rw [List.orderedInsert_cons]
      split_ifs
      · exact ⟨[], head :: (before ++ after), rfl, rfl⟩
      · exact ⟨head :: before, after, rfl, by rw [inserted]; rfl⟩

/-- Among the entries of one key a new one comes last. -/
theorem Sorted.filter_insertLast
    {key : Entry → Key}
    {entry : Entry}
    {entries : List Entry}
    (sorted : Sorted key entries)
    (chosen : Entry → Bool)
    (same : chosen entry = true → ∀ other, chosen other = true → key other = key entry) :
    (Keyed.insertLast key entry entries).filter chosen =
      entries.filter chosen ++ [entry].filter chosen := by
  induction entries with
  | nil => rfl
  | cons head tail inductionHypothesis =>
      obtain ⟨headFirst, tailSorted⟩ := List.pairwise_cons.mp sorted
      unfold Keyed.insertLast
      rw [List.orderedInsert_cons]
      split_ifs with before
      · by_cases isChosen : chosen entry = true
        · have noneChosen : (head :: tail).filter chosen = [] := by
            rw [List.filter_eq_nil_iff]
            intro other present otherChosen
            have equal := same isChosen other otherChosen
            rcases List.mem_cons.mp present with rfl | inTail
            · exact before.ne' equal
            · exact (before.trans_le (headFirst other inTail)).ne' equal
          rw [noneChosen, List.filter_cons_of_pos isChosen, noneChosen, List.nil_append,
            List.filter_cons_of_pos isChosen, List.filter_nil]
        · rw [List.filter_cons_of_neg isChosen, List.filter_cons_of_neg isChosen, List.filter_nil,
            List.append_nil]
      · have rest := inductionHypothesis tailSorted
        unfold Keyed.insertLast at rest
        rw [List.filter_cons, List.filter_cons, rest]
        split_ifs
        · rfl
        · rfl

/-- An entry whose key is at least every key goes to the end. -/
theorem insertLast_eq_append
    {key : Entry → Key}
    {entry : Entry}
    {entries : List Entry}
    (largest : ∀ other ∈ entries, key other ≤ key entry) :
    insertLast key entry entries = entries ++ [entry] := by
  induction entries with
  | nil => rfl
  | cons head tail inductionHypothesis =>
      have notBefore : ¬key entry < key head := not_lt.mpr (largest head (by simp))
      unfold insertLast at inductionHypothesis ⊢
      rw [List.orderedInsert_cons, if_neg notBefore,
        inductionHypothesis fun other present => largest other (by simp [present])]
      rfl

/-- Inserting sorted entries one by one gives them back in their order. -/
theorem foldl_insertLast
    {key : Entry → Key}
    {front entries : List Entry}
    (sorted : Sorted key (front ++ entries)) :
    entries.foldl (fun built entry => insertLast key entry built) front =
      front ++ entries := by
  induction entries generalizing front with
  | nil => simp
  | cons head tail inductionHypothesis =>
      have largest : ∀ other ∈ front, key other ≤ key head := by
        intro other present
        exact (List.pairwise_append.mp sorted).2.2 other present head (by simp)
      rw [List.foldl_cons, insertLast_eq_append largest]
      rw [inductionHypothesis (by simpa using sorted)]
      simp

end Keyed
