import Cppio.Network.Http.RequestParsing
import Cppio.Network.Http.ResponseStability

/-!
# Header blocks

What `header_map::create` makes of a text that consists of header lines.  Lines
with `": "` between name and value are stored completely and in order, and the map
is made again of its own lines.  The value is taken from two bytes after the
colon: where no space follows the colon, its first byte is lost, and where nothing
follows, `substr` throws.
-/

namespace Cppio
namespace Http
namespace HeaderMap

/-- A line `name:rest`. -/
structure FieldLine where
  name : Bytes
  rest : Bytes
  noColon : colon ∉ name
  nameLine : ¬lineEnd <:+: name
  restLine : ¬lineEnd <:+: rest

namespace FieldLine

def bytes (line : FieldLine) : Bytes :=
  line.name ++ colon :: line.rest

/-- The value of the line: what follows the colon and one space, if there is one. -/
def value (line : FieldLine) : Bytes :=
  if line.rest.head? = some space then line.rest.tail else line.rest

theorem not_infix_bytes (line : FieldLine) : ¬lineEnd <:+: line.bytes :=
  Search.not_pair_infix_append_cons (by decide) (by decide) line.nameLine line.restLine

theorem bytes_ne_nil (line : FieldLine) : line.bytes ≠ [] := by
  simp [bytes]

theorem parseLine_bytes
    (line : FieldLine)
    (nonempty : line.rest ≠ []) :
    parseLine line.bytes = .ok (.ok (line.name, line.rest.tail)) := by
  obtain ⟨skipped, value, rest⟩ := List.exists_cons_of_ne_nil nonempty
  rw [parseLine, bytes, Search.cut_singleton_append line.noColon, rest]
  rfl

end FieldLine

/-- The text consists of these lines, with or without a line end after the last. -/
def IsBlock (parts : List Bytes) (text : Bytes) : Prop :=
  text = lineEnd.intercalate parts ∨
    parts ≠ [] ∧ text = lineEnd.intercalate parts ++ lineEnd

theorem lines_of_isBlock
    {parts : List Bytes} {text : Bytes}
    (block : IsBlock parts text)
    (nonempty : ∀ part ∈ parts, part ≠ [])
    (absent : ∀ part ∈ parts, ¬lineEnd <:+: part) :
    lines text = parts := by
  obtain rfl | ⟨some, rfl⟩ := block
  · exact Search.pieces_intercalate (by decide) nonempty absent
  · exact Search.pieces_intercalate_append (by decide) some absent

theorem lines_of_fieldLines
    {fields : List FieldLine} {text : Bytes}
    (block : IsBlock (fields.map FieldLine.bytes) text) :
    lines text = fields.map FieldLine.bytes := by
  apply lines_of_isBlock block
  · exact List.forall_mem_map.mpr fun line _ => line.bytes_ne_nil
  · exact List.forall_mem_map.mpr fun line _ => line.not_infix_bytes

/-! ## What is stored -/

/-- `get` lists a new value last. -/
theorem get_add (map : HeaderMap) (key value name : Bytes) :
    (map.add key value).get name = map.get name ++ if key = name then [value] else [] := by
  have together : decide ((key, value).1 = name) = true → ∀ other : Bytes × Bytes,
      decide (other.1 = name) = true → headerKey other = headerKey (key, value) := by
    intro here other there
    rw [decide_eq_true_eq] at here there
    rw [headerKey, headerKey, there, here]
  have last := map.sorted.filter_insertLast (fun header => decide (header.1 = name)) together
  rw [get, add, last, List.map_append]
  by_cases same : key = name
  · simp [get, same]
  · simp [get, same]

theorem get_addAll (headers : List (Bytes × Bytes)) (map : HeaderMap) (name : Bytes) :
    (map.addAll headers).get name =
      map.get name ++ (headers.filter fun header => header.1 = name).map Prod.snd := by
  induction headers generalizing map with
  | nil => simp [addAll]
  | cons header rest inductionHypothesis =>
      change ((map.add header.1 header.2).addAll rest).get name = _
      rw [inductionHypothesis, get_add, List.append_assoc]
      by_cases same : header.1 = name
      · simp [same]
      · simp [same]

/-- The header that is stored for a line. -/
def FieldLine.stored (line : FieldLine) : Bytes × Bytes :=
  (line.name, line.rest.tail)

theorem addLines_fieldLines
    {fields : List FieldLine}
    (nonempty : ∀ line ∈ fields, line.rest ≠ []) :
    addLines empty (fields.map FieldLine.bytes) =
      .ok (.ok (empty.addAll (fields.map FieldLine.stored))) := by
  refine addLines_eq_ok.mpr ⟨fields.map FieldLine.stored, ?_, rfl⟩
  rw [List.map_map, List.map_map]
  apply List.map_congr_left
  intro line present
  exact line.parseLine_bytes (nonempty line present)

theorem get_stored (fields : List FieldLine) (name : Bytes) :
    (empty.addAll (fields.map FieldLine.stored)).get name =
      (fields.filter fun line => line.name = name).map fun line => line.rest.tail := by
  rw [get_addAll, List.filter_map, List.map_map]
  rfl

/-- `create` of a text in which something follows every colon. -/
theorem create_fieldLines
    {text : StringView} {fields : List FieldLine}
    (block : IsBlock (fields.map FieldLine.bytes) text.bytes)
    (nonempty : ∀ line ∈ fields, line.rest ≠ []) :
    create text = .ok (.ok (empty.addAll (fields.map FieldLine.stored))) := by
  rw [create_eq, lines_of_fieldLines block, addLines_fieldLines nonempty]

/-! ## Blocks as `serialize` writes them -/

/-- A name and a value that make one line. -/
structure Header where
  name : Bytes
  value : Bytes
  noColon : colon ∉ name
  nameLine : ¬lineEnd <:+: name
  valueLine : ¬lineEnd <:+: value

namespace Header

/-- The line `name: value`. -/
def line (header : Header) : FieldLine where
  name := header.name
  rest := space :: header.value
  noColon := header.noColon
  nameLine := header.nameLine
  restLine := by
    have empty : ¬lineEnd <:+: [] := by decide
    exact Search.not_pair_infix_append_cons (by decide) (by decide) empty header.valueLine

def bytes (header : Header) : Bytes :=
  header.line.bytes

end Header

/-- The first empty line of a message is the one after its headers. -/
theorem cut_blockEnd_headers
    {start : Bytes} {headers : List Header}
    (startNonempty : start ≠ [])
    (startLine : ¬lineEnd <:+: start)
    (someHeader : headers ≠ [])
    (body : Bytes) :
    Search.cut blockEnd
        (start ++ lineEnd ++ lineEnd.intercalate (headers.map Header.bytes) ++ blockEnd ++ body) =
      some (start ++ 13 :: 10 :: lineEnd.intercalate (headers.map Header.bytes), body) := by
  have someLine : headers.map Header.bytes ≠ [] := by simpa using someHeader
  apply cut_blockEnd_lines startNonempty startLine someLine
  · exact List.forall_mem_map.mpr fun header _ => header.line.bytes_ne_nil
  · exact List.forall_mem_map.mpr fun header _ => header.line.not_infix_bytes

/-- Headers that are written as `serialize` writes them are read. -/
theorem addLines_headers (headers : List Header) :
    addLines empty (lines (lineEnd.intercalate (headers.map Header.bytes))) =
      .ok (.ok (empty.addAll (headers.map fun header => (header.name, header.value)))) := by
  have block : IsBlock ((headers.map Header.line).map FieldLine.bytes)
      (lineEnd.intercalate (headers.map Header.bytes)) := by
    rw [List.map_map]
    exact Or.inl rfl
  have nonempty : ∀ line ∈ headers.map Header.line, line.rest ≠ [] :=
    List.forall_mem_map.mpr fun header _ => List.cons_ne_nil space header.value
  rw [lines_of_fieldLines block, addLines_fieldLines nonempty, List.map_map]
  rfl

/-- A map is made again of what it serializes to. -/
theorem create_serialize_of_named
    {map : HeaderMap} {again : StringView}
    (headers : ∀ header ∈ map.headers, OfLine header)
    (written : again.bytes = map.serialize) :
    create again = .ok (.ok map) := by
  have block : IsBlock (map.headers.map headerLine) again.bytes := by
    rw [written]
    by_cases none : map.headers = []
    · exact Or.inl (by simp [serialize, none])
    · exact Or.inr ⟨by simpa using none, serialize_eq_intercalate none⟩
  have parts : lines again.bytes = map.headers.map headerLine := by
    apply lines_of_isBlock block
    · exact List.forall_mem_map.mpr fun header _ => by simp [headerLine]
    · exact List.forall_mem_map.mpr fun header present => (headers header present).whole
  rw [create_eq, parts]
  exact addLines_headerLine fun header present => (headers header present).name

/-- A block of headers is stored completely and in order, and the map that is made of
it is made again of its serialized form. -/
theorem create_block
    {text : StringView} {headers : List Header}
    (block : IsBlock (headers.map Header.bytes) text.bytes) :
    ∃ map, create text = .ok (.ok map) ∧
      (∀ name, map.get name =
        (headers.filter fun header => header.name = name).map Header.value) ∧
      ∀ again : StringView, again.bytes = map.serialize → create again = .ok (.ok map) := by
  have fieldBlock : IsBlock ((headers.map Header.line).map FieldLine.bytes) text.bytes := by
    rw [List.map_map]
    exact block
  have created := create_fieldLines fieldBlock
    (List.forall_mem_map.mpr fun header _ => List.cons_ne_nil space header.value)
  refine ⟨_, created, fun name => ?_, fun again written => ?_⟩
  · rw [get_stored, List.filter_map, List.map_map]
    rfl
  · apply create_serialize_of_named _ written
    intro stored present
    obtain old | new := mem_addAll.mp present
    · cases old
    · obtain ⟨line, inLines, rfl⟩ := List.mem_map.mp new
      obtain ⟨header, -, rfl⟩ := List.mem_map.mp inLines
      exact ofLine_of_single header.noColon header.nameLine header.valueLine

/-- Three headers, two of one name, the second of which begins with a line feed. -/
def threeHeaders : List Header :=
  [⟨ascii "B", ascii "1\r", by decide, by decide, by decide⟩,
    ⟨ascii "A", [], by decide, by decide, by decide⟩,
    ⟨ascii "B", ascii "\n3", by decide, by decide, by decide⟩]

theorem create_block_threeHeaders :
    ∃ map, create ⟨ascii "B: 1\r\r\nA: \r\nB: \n3\r\n", by decide⟩ = .ok (.ok map) ∧
      map.get (ascii "B") = [ascii "1\r", ascii "\n3"] := by
  have block : IsBlock (threeHeaders.map Header.bytes)
      (⟨ascii "B: 1\r\r\nA: \r\nB: \n3\r\n", by decide⟩ : StringView).bytes :=
    Or.inr (by decide)
  obtain ⟨map, created, lists, -⟩ := create_block block
  exact ⟨map, created, (lists _).trans (by decide)⟩

/-! ## Blocks without the space -/

/-- `create` succeeds and stores the value of every line. -/
def KeepsData (text : StringView) (fields : List FieldLine) : Prop :=
  ∃ map, create text = .ok (.ok map) ∧
    ∀ name, map.get name =
      (fields.filter fun line => line.name = name).map FieldLine.value

/-- Where nothing follows the colon of some line, `create` throws. -/
theorem rest_ne_nil_of_create
    {text : StringView} {fields : List FieldLine} {outcome : Outcome HeaderMap}
    (block : IsBlock (fields.map FieldLine.bytes) text.bytes)
    (created : create text = .ok outcome) :
    ∀ line ∈ fields, line.rest ≠ [] := by
  intro line present isEmpty
  rw [create_eq, lines_of_fieldLines block] at created
  have continues := (Request.addLines_returns_iff _ _).mp ⟨outcome, created⟩
  have whole : (fields.map FieldLine.bytes).takeWhile (fun line => decide (colon ∈ line)) =
      fields.map FieldLine.bytes := by
    rw [List.takeWhile_eq_self_iff, List.forall_mem_map]
    intro line _
    simp [FieldLine.bytes]
  rw [whole] at continues
  apply continues line.bytes (List.mem_map_of_mem present)
  exact ⟨line.name, line.noColon, by rw [FieldLine.bytes, isEmpty]⟩

/-- No data is lost exactly if a space follows every colon. -/
theorem keepsData_iff
    {text : StringView} {fields : List FieldLine}
    (block : IsBlock (fields.map FieldLine.bytes) text.bytes) :
    KeepsData text fields ↔ ∀ line ∈ fields, ∃ value, line.rest = space :: value := by
  constructor
  · rintro ⟨map, created, lists⟩ line present
    have nonempty := rest_ne_nil_of_create block created
    rw [create_fieldLines block nonempty] at created
    obtain rfl := Except.ok.inj (Except.ok.inj created)
    obtain ⟨first, value, rest⟩ := List.exists_cons_of_ne_nil (nonempty line present)
    have same := lists line.name
    rw [get_stored, List.map_inj_left] at same
    have kept := same line (List.mem_filter.mpr ⟨present, decide_eq_true rfl⟩)
    rw [FieldLine.value, rest] at kept
    split_ifs at kept with spaced
    · obtain rfl := Option.some.inj spaced
      exact ⟨value, rest⟩
    · exact absurd (congrArg List.length kept) (by simp)
  · intro spaced
    have nonempty : ∀ line ∈ fields, line.rest ≠ [] := by
      intro line present
      obtain ⟨value, rest⟩ := spaced line present
      rw [rest]
      exact List.cons_ne_nil space value
    refine ⟨_, create_fieldLines block nonempty, fun name => ?_⟩
    rw [get_stored]
    apply List.map_congr_left
    intro line chosen
    obtain ⟨value, rest⟩ := spaced line (List.mem_filter.mp chosen).1
    rw [FieldLine.value, rest]
    rfl

/-- The line `Host:example`. -/
def unspacedHost : FieldLine :=
  ⟨ascii "Host", ascii "example", by decide, by decide, by decide⟩

/-- The line `Host: example`. -/
def spacedHost : FieldLine :=
  ⟨ascii "Host", ascii " example", by decide, by decide, by decide⟩

theorem keepsData_spacedHost : KeepsData ⟨ascii "Host: example", by decide⟩ [spacedHost] :=
  (keepsData_iff (Or.inl (by decide))).mpr (by simp [spacedHost, ascii, space])

theorem not_keepsData_unspacedHost :
    ¬KeepsData ⟨ascii "Host:example", by decide⟩ [unspacedHost] := by
  have block : IsBlock ([unspacedHost].map FieldLine.bytes) (ascii "Host:example") :=
    Or.inl (by decide)
  rintro ⟨map, created, lists⟩
  rw [create_fieldLines block (by decide)] at created
  obtain rfl := Except.ok.inj (Except.ok.inj created)
  have value := lists (ascii "Host")
  rw [get_stored] at value
  exact absurd value (by decide)

end HeaderMap
end Http
end Cppio
