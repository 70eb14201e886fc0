import Cppio.Library.Keyed
import Cppio.Network.Http.StringView
import Mathlib.Data.List.Lex

/-!
# The header map

`header_map` keeps names and values in a `std::multimap`.  `create` reads one
header from every line of a text, skips the byte after the first colon of the
line, whatever it is, and stops at the first line without a colon.  The module
relates its loop over positions to the lines of the text.
-/

namespace Cppio
namespace Http

/-- `LINE_END`. -/
def lineEnd : Bytes := [13, 10]

/-- `BLOCK_END`. -/
def blockEnd : Bytes := [13, 10, 13, 10]

/-- The byte `:`. -/
def colon : UInt8 := 58

/-- The byte `' '`. -/
def space : UInt8 := 32

/-- `std::less<std::string>` compares bytes as unsigned numbers. -/
def headerKey (header : Bytes × Bytes) : List Nat :=
  header.1.map UInt8.toNat

/-- `header_map`, in the iteration order of its multimap. -/
structure HeaderMap where
  headers : List (Bytes × Bytes)
  sorted : Keyed.Sorted headerKey headers

namespace HeaderMap

@[ext] theorem ext {left right : HeaderMap}
    (same : left.headers = right.headers) : left = right := by
  cases left
  cases right
  cases same
  rfl

def empty : HeaderMap where
  headers := []
  sorted := List.Pairwise.nil

/-- `header_map::add`. -/
def add (map : HeaderMap) (key value : Bytes) : HeaderMap where
  headers := Keyed.insertLast headerKey (key, value) map.headers
  sorted := map.sorted.insertLast (key, value)

/-- `header_map::get`. -/
def get (map : HeaderMap) (key : Bytes) : List Bytes :=
  (map.headers.filter fun header => header.1 = key).map Prod.snd

/-- One line of `header_map::serialize`. -/
def headerLine (header : Bytes × Bytes) : Bytes :=
  header.1 ++ [colon, space] ++ header.2

/-- `header_map::serialize`. -/
def serialize (map : HeaderMap) : Bytes :=
  map.headers.flatMap fun header => headerLine header ++ lineEnd

/-- The rest of the text is shorter after a line end was found. -/
theorem createLoop_decreasing
    {text rest : StringView}
    (next : text.substr (sizeAdd (text.find lineEnd) 2) npos = .ok rest)
    (found : text.find lineEnd ≠ npos) :
    rest.bytes.length < text.bytes.length := by
  obtain ⟨-, bytes⟩ := StringView.substr_eq_ok.mp next
  cases split : Search.cut lineEnd text.bytes with
  | none => exact absurd (StringView.find_of_cut_eq_none split) found
  | some parts =>
      obtain ⟨before, after⟩ := parts
      obtain ⟨whole, -⟩ := Search.cut_pair_eq_some split
      have bound := text.bounded
      have length := congrArg List.length whole
      rw [StringView.find_of_cut_eq_some split] at bytes
      rw [bytes, List.length_take, List.length_drop]
      simp only [List.length_append, List.length_cons, npos, sizeAdd] at *
      omega

/-- The name and the value that the loop of `create` takes from a line. -/
def readHeader (currentView : StringView) : Throws (Outcome (Bytes × Bytes)) := do
  let headerPos := currentView.findFirstOf colon 0
  if headerPos = npos then
    return .error .invalidArgument
  let name ← currentView.substr 0 headerPos
  let value ← currentView.substr (sizeAdd headerPos 2) npos
  return .ok (name.bytes, value.bytes)

/-- The loop of `header_map::create`. -/
def createLoop (text : StringView) (map : HeaderMap) : Throws (Outcome HeaderMap) :=
  if text.bytes.isEmpty then .ok (.ok map)
  else do
    let pos := text.find lineEnd
    let currentView ← text.substr 0 pos
    match ← readHeader currentView with
    | .error code => return .error code
    | .ok (name, value) =>
        match _next : text.substr (sizeAdd pos 2) npos with
        | .error thrown => .error thrown
        | .ok rest =>
            if _found : pos = npos then
              return .ok (map.add name value)
            else createLoop rest (map.add name value)
termination_by text.bytes.length
decreasing_by exact createLoop_decreasing _next _found

/-- `header_map::create`. -/
def create (text : StringView) : Throws (Outcome HeaderMap) :=
  createLoop text empty

/-! ## Lines -/

/-- The header of a line: the name before the first colon, and the value after
the byte that follows it.  A line that ends at its first colon has no such
byte, and `substr` throws. -/
def parseLine (line : Bytes) : Throws (Outcome (Bytes × Bytes)) :=
  match Search.cut [colon] line with
  | none => .ok (.error .invalidArgument)
  | some (_, []) => .error .outOfRange
  | some (name, _ :: value) => .ok (.ok (name, value))

/-- Adding the headers of some lines, up to the first one that has none. -/
def addLines : HeaderMap → List Bytes → Throws (Outcome HeaderMap)
  | map, [] => .ok (.ok map)
  | map, line :: rest =>
      match parseLine line with
      | .error thrown => .error thrown
      | .ok (.error code) => .ok (.error code)
      | .ok (.ok header) => addLines (map.add header.1 header.2) rest

/-- The lines of a text, as `create` takes them. -/
def lines (text : Bytes) : List Bytes :=
  Search.pieces 13 10 text

theorem readHeader_eq (view : StringView) :
    readHeader view = parseLine view.bytes := by
  have bound := view.bounded
  cases split : Search.cut [colon] view.bytes with
  | none =>
      have missing := view.findFirstOf_of_cut_eq_none 0 (by simpa using split)
      simp only [readHeader, parseLine, missing, split, if_pos]
      rfl
  | some parts =>
      obtain ⟨name, after⟩ := parts
      obtain ⟨whole, -⟩ := Search.cut_singleton_eq_some split
      obtain ⟨nameView, _, rfl, -, parts⟩ := view.exists_parts split
      have length := congrArg List.length whole
      simp only [List.length_append, List.length_cons] at length
      have wrapped : sizeAdd nameView.bytes.length 2 = nameView.bytes.length + 2 := by
        unfold sizeAdd npos at *
        omega
      simp only [readHeader, parseLine, view.findFirstOf_zero, parts.found, parts.notEnd,
        parts.first, wrapped, split, if_false]
      cases after with
      | nil =>
          have thrown : view.substr (nameView.bytes.length + 2) npos = .error .outOfRange :=
            StringView.substr_eq_error.mpr (by simp at length; omega)
          rw [thrown]
          rfl
      | cons skipped value =>
          simp only [List.length_cons] at length
          obtain ⟨valueView, valueSub, rfl⟩ : ∃ part,
              view.substr (nameView.bytes.length + 2) npos = .ok part ∧ part.bytes = value := by
            apply view.exists_substr (nameView.bytes.length + 2) npos (by omega)
            rw [view.take_npos, whole, ← List.drop_drop, List.drop_left]
            rfl
          rw [valueSub]
          rfl

/-- One turn of the loop, at a line that a line end follows. -/
theorem createLoop_of_cut_eq_some
    {text rest : StringView} {line : Bytes}
    (split : Search.cut lineEnd text.bytes = some (line, rest.bytes))
    (map : HeaderMap) :
    createLoop text map =
      match parseLine line with
      | .error thrown => .error thrown
      | .ok (.error code) => .ok (.error code)
      | .ok (.ok header) => createLoop rest (map.add header.1 header.2) := by
  obtain ⟨view, rfl, parts⟩ := text.exists_first split
  have next : sizeAdd view.bytes.length 2 = view.bytes.length + 2 := parts.next
  have nonempty : text.bytes.isEmpty = false := by
    obtain ⟨whole, -⟩ := Search.cut_pair_eq_some split
    simp [whole]
  have restSub : text.substr (sizeAdd (text.find lineEnd) 2) npos = .ok rest := by
    rw [parts.found, next]
    exact parts.second
  rw [createLoop]
  simp only [nonempty, Bool.false_eq_true, if_false, parts.found, parts.first]
  change (readHeader view >>= _) = _
  rw [readHeader_eq]
  cases parseLine view.bytes with
  | error thrown => rfl
  | ok outcome =>
      cases outcome with
      | error code => rfl
      | ok header =>
          dsimp only [bind, Except.bind]
          split
          · next _ thrown => cases restSub.symm.trans thrown
          · next other taken =>
              obtain rfl := Except.ok.inj (restSub.symm.trans taken)
              rw [dif_neg parts.notEnd]

/-- The last turn of the loop, at a line that no line end follows. -/
theorem createLoop_of_cut_eq_none
    {text : StringView}
    (nonempty : text.bytes ≠ [])
    (missing : Search.cut lineEnd text.bytes = none)
    (map : HeaderMap) :
    createLoop text map = addLines map [text.bytes] := by
  have found := StringView.find_of_cut_eq_none missing
  have positive := List.length_pos_of_ne_nil nonempty
  have isNonempty : text.bytes.isEmpty = false := by simpa using nonempty
  -- `npos + 2` wraps to 1, which is inside a nonempty text
  obtain ⟨rest, restSub, -⟩ :
      ∃ part, text.substr (sizeAdd (text.find lineEnd) 2) npos = .ok part ∧
        part.bytes = text.bytes.drop 1 := by
    rw [found]
    exact text.exists_substr 1 npos (by omega) (text.take_npos 1)
  rw [createLoop]
  simp only [isNonempty, Bool.false_eq_true, if_false, found, text.substr_whole]
  change (readHeader text >>= _) = _
  rw [readHeader_eq, addLines]
  cases parseLine text.bytes with
  | error thrown => rfl
  | ok outcome =>
      cases outcome with
      | error code => rfl
      | ok header =>
          dsimp only [bind, Except.bind]
          split
          · next _ thrown => cases restSub.symm.trans thrown
          · rfl

/-- `create` adds the headers of its lines, one after the other. -/
theorem createLoop_eq (text : StringView) (map : HeaderMap) :
    createLoop text map = addLines map (lines text.bytes) := by
  induction length : text.bytes.length using Nat.strong_induction_on
      generalizing text map with
  | _ length inductionHypothesis =>
      subst length
      by_cases isEmpty : text.bytes = []
      · rw [createLoop, isEmpty, lines, Search.pieces_nil]
        rfl
      · cases split : Search.cut lineEnd text.bytes with
        | none =>
            rw [createLoop_of_cut_eq_none isEmpty split, lines,
              Search.pieces_of_cut_eq_none isEmpty split]
        | some parts =>
            obtain ⟨line, after⟩ := parts
            have shorter := Search.cut_pair_length_lt split
            let rest : StringView := ⟨after, shorter.trans text.bounded⟩
            have splitRest : Search.cut lineEnd text.bytes = some (line, rest.bytes) := split
            rw [createLoop_of_cut_eq_some splitRest, lines,
              Search.pieces_of_cut_eq_some split, addLines]
            cases parseLine line with
            | error thrown => rfl
            | ok outcome =>
                cases outcome with
                | error code => rfl
                | ok header => exact inductionHypothesis _ shorter rest _ rfl

theorem create_eq (text : StringView) :
    create text = addLines empty (lines text.bytes) :=
  createLoop_eq text empty

end HeaderMap

end Http
end Cppio
