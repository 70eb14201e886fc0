import Cppio.Network.Http.HeaderMap
import Mathlib.Tactic.Tauto

/-!
# The lines of a header map

The form in which a message carries its headers: a start line, one line for
every header, and an empty line.  When no line of the head has a line end of its
own, the empty line is the first one in the text, whatever follows it, and the
lines of the head give the header map back.
-/

namespace Cppio
namespace Http
namespace HeaderMap

/-- What parsing a line says about the header. -/
structure OfLine (header : Bytes × Bytes) : Prop where
  name : colon ∉ header.1
  whole : ¬lineEnd <:+: headerLine header

theorem ofLine_of_parseLine
    {line : Bytes} {header : Bytes × Bytes}
    (single : ¬lineEnd <:+: line)
    (parsed : parseLine line = .ok (.ok header)) :
    OfLine header := by
  cases split : Search.cut [colon] line with
  | none => simp [parseLine, split] at parsed
  | some parts =>
      obtain ⟨name, after⟩ := parts
      obtain ⟨rfl, absent⟩ := Search.cut_singleton_eq_some split
      cases after with
      | nil => simp [parseLine, split] at parsed
      | cons skipped value =>
          obtain rfl : (name, value) = header := by simpa [parseLine, split] using parsed
          refine ⟨absent, ?_⟩
          have nameSingle : ¬lineEnd <:+: name := fun occurs =>
            single (occurs.trans (List.prefix_append name _).isInfix)
          have valueSingle : ¬lineEnd <:+: value := fun occurs =>
            single (occurs.trans ⟨name ++ [colon, skipped], [], by simp⟩)
          have spaced : ¬lineEnd <:+: [] ++ space :: value :=
            Search.not_pair_infix_append_cons (by decide) (by decide) (by decide) valueSingle
          have joined : ¬lineEnd <:+: name ++ colon :: space :: value :=
            Search.not_pair_infix_append_cons (by decide) (by decide) nameSingle spaced
          simpa [headerLine] using joined

/-- The map with some more headers. -/
def addAll (map : HeaderMap) (headers : List (Bytes × Bytes)) : HeaderMap :=
  headers.foldl (fun built header => built.add header.1 header.2) map

/-- `addLines` succeeds when every line gives a header, and adds these headers. -/
theorem addLines_eq_ok
    {map result : HeaderMap} {lines : List Bytes} :
    addLines map lines = .ok (.ok result) ↔
      ∃ headers : List (Bytes × Bytes),
        lines.map parseLine = headers.map (fun header => .ok (.ok header)) ∧
          map.addAll headers = result := by
  induction lines generalizing map with
  | nil => simp [addLines, addAll]
  | cons line rest inductionHypothesis =>
      rw [addLines]
      cases parsed : parseLine line with
      | error thrown =>
          simp only [reduceCtorEq, List.map_cons, parsed, false_iff]
          rintro ⟨_ | _, all, -⟩ <;> simp at all
      | ok outcome =>
          cases outcome with
          | error code =>
              simp only [Except.ok.injEq, reduceCtorEq, List.map_cons, parsed, false_iff]
              rintro ⟨_ | _, all, -⟩ <;> simp at all
          | ok header =>
              dsimp only
              rw [inductionHypothesis]
              constructor
              · rintro ⟨headers, all, rfl⟩
                exact ⟨header :: headers, by simp [parsed, all], rfl⟩
              · rintro ⟨_ | ⟨first, headers⟩, all, rfl⟩
                · simp at all
                · simp only [List.map_cons, parsed, List.cons.injEq, Except.ok.injEq] at all
                  obtain ⟨rfl, rest⟩ := all
                  exact ⟨headers, rest, rfl⟩

/-- Adding headers is inserting them into the sorted list. -/
theorem headers_addAll (headers : List (Bytes × Bytes)) (map : HeaderMap) :
    (map.addAll headers).headers =
      headers.foldl (fun built header => Keyed.insertLast headerKey header built)
        map.headers := by
  induction headers generalizing map with
  | nil => rfl
  | cons header rest inductionHypothesis => exact inductionHypothesis _

/-- Every header of the map is one that was added. -/
theorem mem_addAll
    {headers : List (Bytes × Bytes)} {map : HeaderMap} {header : Bytes × Bytes} :
    header ∈ (map.addAll headers).headers ↔ header ∈ map.headers ∨ header ∈ headers := by
  induction headers generalizing map with
  | nil => simp [addAll]
  | cons first rest inductionHypothesis =>
      change header ∈ ((map.add first.1 first.2).addAll rest).headers ↔ _
      rw [inductionHypothesis]
      simp only [add, (Keyed.insertLast_perm headerKey _ _).mem_iff, List.mem_cons]
      tauto

/-- A map is made again of its own lines. -/
theorem addLines_headerLine
    {map : HeaderMap}
    (named : ∀ header ∈ map.headers, colon ∉ header.1) :
    addLines empty (map.headers.map headerLine) = .ok (.ok map) := by
  refine addLines_eq_ok.mpr ⟨map.headers, ?_, ?_⟩
  · rw [List.map_map]
    apply List.map_congr_left
    intro header present
    have split := Search.cut_singleton_append (named header present) (space :: header.2)
    simp [parseLine, headerLine, split]
  · have sorted : Keyed.Sorted headerKey ([] ++ map.headers) := map.sorted
    apply HeaderMap.ext
    rw [headers_addAll]
    exact Keyed.foldl_insertLast sorted

/-- The serialized form is the join of the lines, and one more line end. -/
theorem serialize_eq_intercalate
    {map : HeaderMap}
    (nonempty : map.headers ≠ []) :
    map.serialize = lineEnd.intercalate (map.headers.map headerLine) ++ lineEnd := by
  rw [serialize]
  generalize map.headers = headers at nonempty ⊢
  induction headers with
  | nil => exact absurd rfl nonempty
  | cons header rest inductionHypothesis =>
      cases rest with
      | nil => simp
      | cons next rest =>
          rw [List.flatMap_cons, inductionHypothesis (by simp)]
          simp [List.intercalate_cons_cons]

/-! ## The head of a message -/

/-- A start line and headers that are written as lines of their own. -/
structure Head (start : Bytes) (map : HeaderMap) : Prop where
  startNonempty : start ≠ []
  startLine : ¬lineEnd <:+: start
  nonempty : map.headers ≠ []
  headers : ∀ header ∈ map.headers, OfLine header

/-- The first empty line is the one after the last of some lines that are not empty. -/
theorem cut_blockEnd_lines
    {start : Bytes} {parts : List Bytes}
    (startNonempty : start ≠ [])
    (startLine : ¬lineEnd <:+: start)
    (someLine : parts ≠ [])
    (nonempty : ∀ part ∈ parts, part ≠ [])
    (absent : ∀ part ∈ parts, ¬lineEnd <:+: part)
    (body : Bytes) :
    Search.cut blockEnd (start ++ lineEnd ++ lineEnd.intercalate parts ++ blockEnd ++ body) =
      some (start ++ 13 :: 10 :: lineEnd.intercalate parts, body) := by
  have joined : lineEnd.intercalate (start :: parts) =
      start ++ 13 :: 10 :: lineEnd.intercalate parts := by
    rw [List.intercalate_cons_of_ne_nil someLine]
    simp [lineEnd]
  have written : start ++ lineEnd ++ lineEnd.intercalate parts ++ blockEnd ++ body =
      lineEnd.intercalate (start :: parts) ++ 13 :: 10 :: 13 :: 10 :: body := by
    rw [joined]
    simp [lineEnd, blockEnd]
  rw [written, ← joined]
  exact Search.cut_double_intercalate (by decide) (List.cons_ne_nil start parts)
    (List.forall_mem_cons.mpr ⟨startNonempty, nonempty⟩)
    (List.forall_mem_cons.mpr ⟨startLine, absent⟩) body

/-- The lines of the headers, joined. -/
def block (map : HeaderMap) : Bytes :=
  lineEnd.intercalate (map.headers.map headerLine)

/-- The first empty line is the one after the last header. -/
theorem Head.cut_blockEnd
    {start : Bytes} {map : HeaderMap}
    (head : Head start map)
    (body : Bytes) :
    Search.cut blockEnd (start ++ lineEnd ++ map.serialize ++ lineEnd ++ body) =
      some (start ++ 13 :: 10 :: map.block, body) := by
  have written : start ++ lineEnd ++ map.serialize ++ lineEnd ++ body =
      start ++ lineEnd ++ map.block ++ blockEnd ++ body := by
    rw [block, serialize_eq_intercalate head.nonempty]
    simp [lineEnd, blockEnd]
  have someLine : map.headers.map headerLine ≠ [] := by simpa using head.nonempty
  rw [written]
  apply cut_blockEnd_lines head.startNonempty head.startLine someLine
  · exact List.forall_mem_map.mpr fun header _ => by simp [headerLine]
  · exact List.forall_mem_map.mpr fun header present => (head.headers header present).whole

/-- The first line of the head is the start line. -/
theorem Head.cut_lineEnd
    {start : Bytes} {map : HeaderMap}
    (head : Head start map) :
    Search.cut lineEnd (start ++ 13 :: 10 :: map.block) = some (start, map.block) :=
  Search.cut_pair_append (by decide) head.startLine map.block

/-- The other lines give the headers back. -/
theorem Head.addLines_block
    {start : Bytes} {map : HeaderMap}
    (head : Head start map) :
    addLines empty (lines map.block) = .ok (.ok map) := by
  have parts : lines map.block = map.headers.map headerLine := by
    refine Search.pieces_intercalate (by decide) ?_ ?_
    · rw [List.forall_mem_map]
      exact fun header _ => by simp [headerLine]
    · rw [List.forall_mem_map]
      exact fun header present => (head.headers header present).whole
  rw [parts]
  exact addLines_headerLine fun header present => (head.headers header present).name

end HeaderMap
end Http
end Cppio
