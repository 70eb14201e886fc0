import Cppio.Network.Http.HeaderBlocks

/-!
# Query strings

What `request::create` makes of a target with a query string.  Its segments are a
key alone, or a key, `=` and an encoded value.  The loop meets each of them once,
and of the segments with one key the last one stays.
-/

namespace Cppio
namespace Http
namespace Request

/-! ## Parameters of segments -/

/-- A segment with this key and this value may be written so. -/
inductive WritesSegment : Bytes → Bytes → Bytes → Prop
  | bare {key : Bytes} (nonempty : key ≠ []) : WritesSegment key [] key
  | assigned {key value encoded : Bytes} (encodes : Encodes encoded value)
      (noAmpersand : ampersand ∉ encoded) (noSpace : space ∉ encoded)
      (single : ¬lineEnd <:+: encoded) :
      WritesSegment key value (key ++ equalsSign :: encoded)

/-- A segment of a query string. -/
structure Segment where
  key : Bytes
  value : Bytes
  bytes : Bytes
  writes : WritesSegment key value bytes
  noAmpersand : ampersand ∉ key
  noEquals : equalsSign ∉ key
  noSpace : space ∉ key
  single : ¬lineEnd <:+: key

namespace Segment

theorem bytes_ne_nil (segment : Segment) : segment.bytes ≠ [] := by
  obtain ⟨key, value, bytes, writes, -, -, -, -⟩ := segment
  cases writes with
  | bare nonempty => exact nonempty
  | assigned => simp

theorem ampersand_not_mem (segment : Segment) : ampersand ∉ segment.bytes := by
  obtain ⟨key, value, bytes, writes, noAmpersand, -, -, -⟩ := segment
  cases writes with
  | bare nonempty => exact noAmpersand
  | assigned encodes absent =>
      rw [List.mem_append, List.mem_cons]
      rintro (inKey | isEquals | inValue)
      · exact noAmpersand inKey
      · exact absurd isEquals (by decide)
      · exact absent inValue

theorem space_not_mem (segment : Segment) : space ∉ segment.bytes := by
  obtain ⟨key, value, bytes, writes, -, -, noSpace, -⟩ := segment
  cases writes with
  | bare nonempty => exact noSpace
  | assigned encodes _ absent =>
      rw [List.mem_append, List.mem_cons]
      rintro (inKey | isEquals | inValue)
      · exact noSpace inKey
      · exact absurd isEquals (by decide)
      · exact absent inValue

theorem not_infix_bytes (segment : Segment) : ¬lineEnd <:+: segment.bytes := by
  obtain ⟨key, value, bytes, writes, -, -, -, single⟩ := segment
  cases writes with
  | bare nonempty => exact single
  | assigned encodes _ _ absent =>
      exact Search.not_pair_infix_append_cons (by decide) (by decide) single absent

/-- The first `=` ends the key, and the rest is the value's encoding. -/
theorem splitParameter_bytes (segment : Segment) :
    (splitParameter segment.bytes).1 = segment.key ∧
      urlDecode (splitParameter segment.bytes).2 = segment.value := by
  obtain ⟨key, value, bytes, writes, -, noEquals, -, -⟩ := segment
  cases writes with
  | bare nonempty =>
      rw [splitParameter, Search.cut_singleton_eq_none.mpr noEquals]
      exact ⟨rfl, rfl⟩
  | assigned encodes =>
      rw [splitParameter, Search.cut_singleton_append noEquals]
      exact ⟨rfl, encodes.urlDecode_eq⟩

end Segment

/-- The segments of a query string, joined. -/
def joinSegments (segments : List Segment) : Bytes :=
  [ampersand].intercalate (segments.map Segment.bytes)

/-- The parameters of some segments, added to those read before. -/
def addSegments (parameters : ParameterMap) (segments : List Segment) : ParameterMap :=
  segments.foldl (fun added segment => added.insert segment.key segment.value) parameters

/-- The query loop takes the segments one after the other. -/
theorem decodeParameters_joinSegments (segments : List Segment) (parameters : ParameterMap) :
    decodeParameters (joinSegments segments) parameters = addSegments parameters segments := by
  induction segments generalizing parameters with
  | nil =>
      rw [joinSegments, decodeParameters]
      rfl
  | cons segment rest inductionHypothesis =>
      obtain ⟨sameKey, sameValue⟩ := segment.splitParameter_bytes
      cases rest with
      | nil =>
          have whole : joinSegments [segment] = segment.bytes := List.intercalate_singleton
          rw [whole, decodeParameters_of_cut_eq_none segment.bytes_ne_nil
            (Search.cut_singleton_eq_none.mpr segment.ampersand_not_mem), sameKey, sameValue]
          rfl
      | cons next rest =>
          have joined : joinSegments (segment :: next :: rest) =
              segment.bytes ++ ampersand :: joinSegments (next :: rest) := by
            rw [joinSegments, List.map_cons, List.map_cons, List.intercalate_cons_cons]
            simp [joinSegments]
          rw [joined, decodeParameters_of_cut_eq_some
            (Search.cut_singleton_append segment.ampersand_not_mem _), sameKey, sameValue,
            inductionHypothesis]
          rfl

/-- The last segment of a key gives its value. -/
theorem lookup_addSegments
    (segments : List Segment) (parameters : ParameterMap) (key : Bytes) :
    (addSegments parameters segments).lookup key =
      (((segments.filter fun segment => segment.key = key).getLast?).map Segment.value).or
        (parameters.lookup key) := by
  induction segments generalizing parameters with
  | nil => rfl
  | cons segment rest inductionHypothesis =>
      change (addSegments (parameters.insert segment.key segment.value) rest).lookup key = _
      rw [inductionHypothesis]
      by_cases same : segment.key = key
      · subst same
        rw [AList.lookup_insert, List.filter_cons_of_pos (by simp), List.getLast?_cons]
        cases (rest.filter fun other => other.key = segment.key).getLast? <;> rfl
      · rw [AList.lookup_insert_ne (Ne.symm same), List.filter_cons_of_neg (by simpa using same)]

/-! ## Requests with a query string -/

/-- A request whose target is a path with a query string. -/
structure QueryRequest where
  method : Bytes
  path : Bytes
  segments : List Segment
  version : Bytes
  headers : List HeaderMap.Header
  body : Bytes
  methodSpace : space ∉ method
  methodLine : ¬lineEnd <:+: method
  pathSpace : space ∉ path
  pathQuestion : questionMark ∉ path
  pathLine : ¬lineEnd <:+: path
  someSegment : segments ≠ []
  versionLine : ¬lineEnd <:+: version
  someHeader : headers ≠ []

namespace QueryRequest

def target (request : QueryRequest) : Bytes :=
  request.path ++ questionMark :: joinSegments request.segments

def line (request : QueryRequest) : Bytes :=
  request.method ++ space :: (request.target ++ space :: request.version)

def bytes (request : QueryRequest) : Bytes :=
  request.line ++ lineEnd ++ lineEnd.intercalate (request.headers.map HeaderMap.Header.bytes) ++
    blockEnd ++ request.body

theorem space_not_mem_target (request : QueryRequest) : space ∉ request.target := by
  have segments : space ∉ joinSegments request.segments := by
    apply Search.not_mem_intercalate (by decide)
    exact List.forall_mem_map.mpr fun segment _ => segment.space_not_mem
  rw [target, List.mem_append, List.mem_cons]
  rintro (inPath | isQuestion | inQuery)
  · exact request.pathSpace inPath
  · exact absurd isQuestion (by decide)
  · exact segments inQuery

theorem not_infix_line (request : QueryRequest) : ¬lineEnd <:+: request.line := by
  have segments : ¬lineEnd <:+: joinSegments request.segments := by
    apply Search.not_pair_infix_intercalate (by decide) (by decide)
    exact List.forall_mem_map.mpr fun segment _ => segment.not_infix_bytes
  have target : ¬lineEnd <:+: request.target :=
    Search.not_pair_infix_append_cons (by decide) (by decide) request.pathLine segments
  have rest : ¬lineEnd <:+: request.target ++ space :: request.version :=
    Search.not_pair_infix_append_cons (by decide) (by decide) target request.versionLine
  exact Search.not_pair_infix_append_cons (by decide) (by decide) request.methodLine rest

theorem splitRequestLine_line (request : QueryRequest) :
    splitRequestLine request.line = (request.method, request.target, request.version) := by
  rw [splitRequestLine, line, Search.cut_singleton_append request.methodSpace]
  dsimp only
  rw [Search.cut_singleton_append request.space_not_mem_target]

/-- What is made of the line, whatever the headers are. -/
theorem assemble_line (request : QueryRequest) (headers : HeaderMap) :
    (assemble request.line headers).path = request.path ∧
      (assemble request.line headers).parameters = addSegments ∅ request.segments := by
  have query : Search.cut [questionMark] request.target =
      some (request.path, joinSegments request.segments) :=
    Search.cut_singleton_append request.pathQuestion _
  rw [assemble, splitRequestLine_line]
  dsimp only
  rw [query]
  exact ⟨rfl, decodeParameters_joinSegments _ _⟩

end QueryRequest

/-- A request with a query string is accepted; its parameters are the keys of the
segments, each with the decoded value of its last segment. -/
theorem create_query
    {text : StringView} {query : QueryRequest}
    (written : text.bytes = query.bytes) :
    ∃ request, create text = .ok (.ok request) ∧ request.path = query.path ∧
      ∀ key, request.parameters.lookup key =
        ((query.segments.filter fun segment => segment.key = key).getLast?).map
          Segment.value := by
  have lineNonempty : query.line ≠ [] := by simp [QueryRequest.line]
  have head : headOf text.bytes = query.line ++ 13 :: 10 ::
      lineEnd.intercalate (query.headers.map HeaderMap.Header.bytes) := by
    rw [headOf, written, QueryRequest.bytes, HeaderMap.cut_blockEnd_headers lineNonempty
      query.not_infix_line query.someHeader]
  have created : create text = .ok (.ok (assemble query.line
      (.addAll .empty (query.headers.map fun header => (header.name, header.value))))) := by
    have split : Search.cut lineEnd (query.line ++ 13 :: 10 ::
        lineEnd.intercalate (query.headers.map HeaderMap.Header.bytes)) = some (query.line, _) :=
      Search.cut_pair_append (by decide) query.not_infix_line _
    rw [create_eq, parse, head, split]
    dsimp only
    rw [HeaderMap.addLines_headers]
  obtain ⟨path, parameters⟩ := query.assemble_line
    (.addAll .empty (query.headers.map fun header => (header.name, header.value)))
  refine ⟨_, created, path, fun key => ?_⟩
  rw [parameters, lookup_addSegments, AList.lookup_empty, Option.or_none]

/-- The segment `a=1`. -/
def plainSegment : Segment where
  key := ascii "a"
  value := ascii "1"
  bytes := ascii "a=1"
  writes := .assigned (.literal (by decide) (by decide) .nil) (by decide) (by decide) (by decide)
  noAmpersand := by decide
  noEquals := by decide
  noSpace := by decide
  single := by decide

/-- The segment `a=%3D+?`. -/
def encodedSegment : Segment where
  key := ascii "a"
  value := ascii "= ?"
  bytes := ascii "a=%3D+?"
  writes := .assigned (.escaped (Or.inl rfl) (Or.inr rfl) (.plus (.literal (by decide) (by decide)
    .nil))) (by decide) (by decide) (by decide)
  noAmpersand := by decide
  noEquals := by decide
  noSpace := by decide
  single := by decide

/-- A request with the key `a` in two segments. -/
def twiceQuery : QueryRequest where
  method := ascii "GET"
  path := ascii "/p"
  segments := [plainSegment, encodedSegment]
  version := ascii "HTTP/1.1"
  headers := [⟨ascii "Accept", ascii "b", by decide, by decide, by decide⟩]
  body := []
  methodSpace := by decide
  methodLine := by decide
  pathSpace := by decide
  pathQuestion := by decide
  pathLine := by decide
  someSegment := List.cons_ne_nil _ _
  versionLine := by decide
  someHeader := List.cons_ne_nil _ _

theorem create_query_twice :
    ∃ request, create ⟨ascii "GET /p?a=1&a=%3D+? HTTP/1.1\r\nAccept: b\r\n\r\n", by decide⟩ =
        .ok (.ok request) ∧
      request.parameters.lookup (ascii "a") = some (ascii "= ?") := by
  have written : (⟨ascii "GET /p?a=1&a=%3D+? HTTP/1.1\r\nAccept: b\r\n\r\n", by decide⟩ :
      StringView).bytes = twiceQuery.bytes := by
    decide
  obtain ⟨request, created, -, parameters⟩ := create_query written
  exact ⟨request, created, (parameters _).trans (by decide)⟩

end Request
end Http
end Cppio
