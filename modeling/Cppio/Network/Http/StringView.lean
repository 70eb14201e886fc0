import Cppio.Library.Search
import Mathlib.Algebra.Group.Nat.Defs

/-!
# String views

The members of `std::string_view` that the HTTP parsers use.  Positions are
`size_t` values, so arithmetic on them wraps at `2 ^ 64`; `npos` is the largest
one and no view is that long.  `substr` throws when it starts past the end.
-/

namespace Cppio
namespace Http

abbrev Bytes := List UInt8

/-- `std::string_view::npos`. -/
def npos : Nat := 2 ^ 64 - 1

/-- Addition of `size_t` values. -/
def sizeAdd (left right : Nat) : Nat := (left + right) % 2 ^ 64

/-- Subtraction of `size_t` values. -/
def sizeSub (left right : Nat) : Nat := (left + 2 ^ 64 - right) % 2 ^ 64

/-- The exception `substr` throws. -/
inductive OutOfRange
  | outOfRange
  deriving DecidableEq

/-- A computation that may throw. -/
abbrev Throws (α : Type) := Except OutOfRange α

/-- The error codes that the parsers return. -/
inductive Errc
  | invalidArgument
  deriving DecidableEq

/-- `outcome::result`. -/
abbrev Outcome (α : Type) := Except Errc α

/-- `std::string_view`. -/
@[ext] structure StringView where
  bytes : Bytes
  bounded : bytes.length < npos

namespace StringView

def empty : StringView where
  bytes := []
  bounded := by decide

/-- `find(pattern)`. -/
def find (text : StringView) (pattern : Bytes) : Nat :=
  (Search.firstIndex pattern text.bytes).getD npos

/-- `find_first_of(ch, pos)`. -/
def findFirstOf (text : StringView) (ch : UInt8) (pos : Nat) : Nat :=
  ((Search.firstIndex [ch] (text.bytes.drop pos)).map (pos + ·)).getD npos

/-- `substr(pos, count)`. -/
def substr (text : StringView) (pos count : Nat) : Throws StringView :=
  if pos ≤ text.bytes.length then
    .ok
      { bytes := (text.bytes.drop pos).take count
        bounded := by
          have bound := text.bounded
          rw [List.length_take, List.length_drop]
          omega }
  else .error .outOfRange

@[simp] theorem substr_eq_ok
    {text view : StringView} {pos count : Nat} :
    text.substr pos count = .ok view ↔
      pos ≤ text.bytes.length ∧ view.bytes = (text.bytes.drop pos).take count := by
  unfold substr
  split_ifs with inside
  · cases view
    simp [inside, eq_comm]
  · simp [inside]

/-- `substr` throws exactly when it starts past the end. -/
theorem substr_eq_error
    {text : StringView} {pos count : Nat} {thrown : OutOfRange} :
    text.substr pos count = .error thrown ↔ text.bytes.length < pos := by
  cases thrown
  unfold substr
  split_ifs with inside
  · simp [inside]
  · simpa using inside

theorem find_of_cut_eq_none
    {text : StringView} {pattern : Bytes}
    (missing : Search.cut pattern text.bytes = none) :
    text.find pattern = npos := by
  unfold Search.cut at missing
  rw [find, Option.map_eq_none_iff.mp missing]
  rfl

theorem find_of_cut_eq_some
    {text : StringView} {pattern before after : Bytes}
    (split : Search.cut pattern text.bytes = some (before, after)) :
    text.find pattern = before.length := by
  obtain ⟨parts, none⟩ := Search.cut_eq_some split
  rw [find, parts, Search.firstIndex_append (parts ▸ none)]
  rfl

theorem findFirstOf_of_cut_eq_none
    (text : StringView) {ch : UInt8} (pos : Nat)
    (missing : Search.cut [ch] (text.bytes.drop pos) = none) :
    text.findFirstOf ch pos = npos := by
  unfold Search.cut at missing
  rw [findFirstOf, Option.map_eq_none_iff.mp missing]
  rfl

theorem findFirstOf_of_cut_eq_some
    (text : StringView) {ch : UInt8} (pos : Nat) {before after : Bytes}
    (split : Search.cut [ch] (text.bytes.drop pos) = some (before, after)) :
    text.findFirstOf ch pos = pos + before.length := by
  obtain ⟨parts, none⟩ := Search.cut_eq_some split
  rw [findFirstOf, parts, Search.firstIndex_append (parts ▸ none)]
  rfl

/-- A `substr` that starts inside the view returns the bytes it names. -/
theorem exists_substr
    (text : StringView) (pos count : Nat) {bytes : Bytes}
    (inside : pos ≤ text.bytes.length)
    (named : (text.bytes.drop pos).take count = bytes) :
    ∃ view, text.substr pos count = .ok view ∧ view.bytes = bytes := by
  refine ⟨⟨bytes, ?_⟩, substr_eq_ok.mpr ⟨inside, named.symm⟩, rfl⟩
  have bound := text.bounded
  rw [← named, List.length_take, List.length_drop]
  omega

/-- Every part of a view is shorter than `npos`. -/
theorem take_npos (text : StringView) (pos : Nat) :
    (text.bytes.drop pos).take npos = text.bytes.drop pos := by
  apply List.take_of_length_le
  have bound := text.bounded
  rw [List.length_drop]
  omega

/-- `substr(0)` is the whole view. -/
theorem substr_whole (text : StringView) : text.substr 0 npos = .ok text :=
  substr_eq_ok.mpr ⟨Nat.zero_le _, (text.take_npos 0).symm⟩

theorem findFirstOf_zero (text : StringView) (ch : UInt8) :
    text.findFirstOf ch 0 = text.find [ch] := by
  simp [findFirstOf, find]

/-- Where the pattern is first found, two `substr`s name the parts of the view. -/
structure Parts (text : StringView) (pattern : Bytes) (before after : StringView) : Prop where
  found : text.find pattern = before.bytes.length
  notEnd : before.bytes.length ≠ npos
  next : sizeAdd before.bytes.length pattern.length = before.bytes.length + pattern.length
  first : text.substr 0 before.bytes.length = .ok before
  second : text.substr (before.bytes.length + pattern.length) npos = .ok after

theorem parts_of_cut
    {text before after : StringView} {pattern : Bytes}
    (split : Search.cut pattern text.bytes = some (before.bytes, after.bytes)) :
    text.Parts pattern before after := by
  obtain ⟨whole, -⟩ := Search.cut_eq_some split
  have bound := text.bounded
  have length := congrArg List.length whole
  simp only [List.length_append] at length
  refine ⟨find_of_cut_eq_some split, by omega, ?_, ?_, ?_⟩
  · unfold sizeAdd npos at *
    omega
  · exact substr_eq_ok.mpr ⟨Nat.zero_le _, by simp [whole]⟩
  · refine substr_eq_ok.mpr ⟨by omega, ?_⟩
    rw [take_npos, whole, ← List.length_append, List.drop_left]

/-- A cut of a view has views as its parts. -/
theorem exists_parts
    (text : StringView) {pattern before after : Bytes}
    (split : Search.cut pattern text.bytes = some (before, after)) :
    ∃ first second : StringView, first.bytes = before ∧ second.bytes = after ∧
      text.Parts pattern first second := by
  obtain ⟨whole, -⟩ := Search.cut_eq_some split
  have bound := text.bounded
  have length := congrArg List.length whole
  simp only [List.length_append] at length
  exact ⟨⟨before, by omega⟩, ⟨after, by omega⟩, rfl, rfl, parts_of_cut split⟩

/-- The second part may be given as a view. -/
theorem exists_first
    (text : StringView) {pattern before : Bytes} {after : StringView}
    (split : Search.cut pattern text.bytes = some (before, after.bytes)) :
    ∃ first : StringView, first.bytes = before ∧ text.Parts pattern first after := by
  obtain ⟨first, second, isFirst, isSecond, parts⟩ := text.exists_parts split
  rw [StringView.ext isSecond] at parts
  exact ⟨first, isFirst, parts⟩

end StringView

end Http
end Cppio
