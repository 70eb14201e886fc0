import Cppio.Network.Http.HeaderLines
import Cppio.Network.Http.RequestParsing

/-!
# Parsing again what was serialized

A request that `create` made of a text with an empty line is made again of its
serialized form, whatever bytes follow.  Its path has no space and no `?`, its
header names have no colon, and no field has a line end, so serializing writes
only line ends of its own; the first empty line is the one that `serialize`
writes because every header line has a colon.
-/

namespace Cppio
namespace Http

namespace Request

/-- What `create` guarantees about the fields of a request. -/
structure Parsed (request : Request) : Prop where
  nonempty : request.headers.headers ≠ []
  headers : ∀ header ∈ request.headers.headers, HeaderMap.OfLine header
  path : space ∉ request.path ∧ questionMark ∉ request.path
  pathLine : ¬lineEnd <:+: request.path
  versionLine : ¬lineEnd <:+: request.version

/-- The target has no space, and both parts are parts of the line. -/
theorem splitRequestLine_parts (line : Bytes) :
    space ∉ (splitRequestLine line).2.1 ∧
      (splitRequestLine line).2.1 <:+: line ∧ (splitRequestLine line).2.2 <:+: line := by
  unfold splitRequestLine
  cases first : Search.cut [space] line with
  | none =>
      exact ⟨Search.cut_singleton_eq_none.mp first, List.infix_refl line, List.infix_refl line⟩
  | some parts =>
      obtain ⟨method, rest⟩ := parts
      obtain ⟨rfl, -⟩ := Search.cut_singleton_eq_some first
      dsimp only
      cases second : Search.cut [space] rest with
      | none =>
          exact ⟨Search.cut_singleton_eq_none.mp second, ⟨method ++ [space], [], by simp⟩,
            List.infix_refl _⟩
      | some parts =>
          obtain ⟨target, version⟩ := parts
          obtain ⟨rfl, absent⟩ := Search.cut_singleton_eq_some second
          exact ⟨absent, ⟨method ++ [space], space :: version, by simp⟩,
            ⟨method ++ [space] ++ target ++ [space], [], by simp⟩⟩

/-- The fields taken from the request line. -/
theorem assemble_fields (line : Bytes) (headers : HeaderMap) :
    (assemble line headers).headers = headers ∧
      (assemble line headers).version = (splitRequestLine line).2.2 ∧
      (assemble line headers).path <+: (splitRequestLine line).2.1 ∧
      questionMark ∉ (assemble line headers).path := by
  rcases parts : splitRequestLine line with ⟨method, target, version⟩
  simp only [assemble, parts]
  cases query : Search.cut [questionMark] target with
  | none =>
      exact ⟨rfl, rfl, List.prefix_refl target, Search.cut_singleton_eq_none.mp query⟩
  | some cuts =>
      obtain ⟨path, args⟩ := cuts
      obtain ⟨rfl, absent⟩ := Search.cut_singleton_eq_some query
      exact ⟨rfl, rfl, List.prefix_append path _, absent⟩

/-- Before an empty line there is no text that ends with a line end. -/
theorem block_ne_nil
    {text line block : Bytes}
    (complete : blockEnd <:+: text)
    (split : Search.cut lineEnd (headOf text) = some (line, block)) :
    block ≠ [] := by
  rintro rfl
  obtain ⟨parted, single⟩ := Search.cut_pair_eq_some split
  rw [headOf] at parted
  cases whole : Search.cut blockEnd text with
  | none => exact Search.cut_eq_none whole complete
  | some parts =>
      obtain ⟨head, after⟩ := parts
      rw [whole] at parted
      dsimp only at parted
      subst parted
      obtain ⟨textEq, none⟩ := Search.cut_eq_some whole
      apply none line.length (by simp)
      rw [textEq, List.append_assoc, List.append_assoc, List.drop_left]
      exact ⟨13 :: 10 :: after, by simp [blockEnd]⟩

/-- The line and the headers that an accepted text was made of. -/
theorem exists_parts_of_create
    {text : StringView} {request : Request}
    (parsed : create text = .ok (.ok request)) :
    ∃ line block headers, Search.cut lineEnd (headOf text.bytes) = some (line, block) ∧
      HeaderMap.addLines .empty (HeaderMap.lines block) = .ok (.ok headers) ∧
      assemble line headers = request := by
  rw [create_eq, parse] at parsed
  cases split : Search.cut lineEnd (headOf text.bytes) with
  | none => simp [split] at parsed
  | some parts =>
      obtain ⟨line, block⟩ := parts
      rw [split] at parsed
      dsimp only at parsed
      cases added : HeaderMap.addLines .empty (HeaderMap.lines block) with
      | error thrown => simp [added] at parsed
      | ok outcome =>
          cases outcome with
          | error code => simp [added] at parsed
          | ok headers =>
              rw [added] at parsed
              exact ⟨line, block, headers, rfl, added, by simpa using parsed⟩

/-- A text with an empty line has a header, if it is accepted. -/
theorem headers_ne_nil
    {text : StringView} {request : Request}
    (complete : blockEnd <:+: text.bytes)
    (parsed : create text = .ok (.ok request)) :
    request.headers.headers ≠ [] := by
  obtain ⟨line, block, headers, split, added, rfl⟩ := exists_parts_of_create parsed
  rw [(assemble_fields line headers).1]
  obtain ⟨fromLines, all, rfl⟩ := HeaderMap.addLines_eq_ok.mp added
  have someHeader : fromLines ≠ [] := by
    rintro rfl
    exact Search.pieces_ne_nil (block_ne_nil complete split) (List.map_eq_nil_iff.mp all)
  obtain ⟨header, present⟩ := List.exists_mem_of_ne_nil fromLines someHeader
  exact List.ne_nil_of_mem (HeaderMap.mem_addAll.mpr (Or.inr present))

theorem parsed_of_create
    {text : StringView} {request : Request}
    (nonempty : request.headers.headers ≠ [])
    (parsed : create text = .ok (.ok request)) :
    Parsed request := by
  obtain ⟨line, block, headers, split, added, rfl⟩ := exists_parts_of_create parsed
  obtain ⟨-, lineSingle⟩ := Search.cut_pair_eq_some split
  obtain ⟨sameHeaders, sameVersion, pathPrefix, noQuery⟩ := assemble_fields line headers
  obtain ⟨noSpace, targetInfix, versionInfix⟩ := splitRequestLine_parts line
  obtain ⟨fromLines, all, rfl⟩ := HeaderMap.addLines_eq_ok.mp added
  have ofLine : ∀ header ∈ fromLines, HeaderMap.OfLine header := by
    intro header present
    have inMap : .ok (.ok header) ∈ (HeaderMap.lines block).map HeaderMap.parseLine :=
      all ▸ List.mem_map_of_mem present
    obtain ⟨fromLine, inLines, parsedLine⟩ := List.mem_map.mp inMap
    exact HeaderMap.ofLine_of_parseLine (Search.not_infix_of_mem_pieces inLines) parsedLine
  exact
    { nonempty := nonempty
      headers := by
        rw [sameHeaders]
        intro header present
        rcases HeaderMap.mem_addAll.mp present with old | new
        · cases old
        · exact ofLine header new
      path := ⟨fun present => noSpace (pathPrefix.subset present), noQuery⟩
      pathLine := fun occurs =>
        lineSingle (occurs.trans (pathPrefix.isInfix.trans targetInfix))
      versionLine := by
        rw [sameVersion]
        exact fun occurs => lineSingle (occurs.trans versionInfix) }

/-- The request line that `serialize` writes for a request without parameters. -/
def requestLine (request : Request) : Bytes :=
  request.method.toString ++ space :: (request.path ++ space :: request.version)

theorem not_infix_requestLine
    {request : Request}
    (pathLine : ¬lineEnd <:+: request.path)
    (versionLine : ¬lineEnd <:+: request.version) :
    ¬lineEnd <:+: request.requestLine := by
  have methodSingle : ¬lineEnd <:+: request.method.toString := by
    intro occurs
    have present : 13 ∈ request.method.toString := occurs.subset (by decide)
    exact absurd (Method.upper_of_mem_toString present) (by decide)
  have pathVersion : ¬lineEnd <:+: request.path ++ space :: request.version :=
    Search.not_pair_infix_append_cons (by decide) (by decide) pathLine versionLine
  exact Search.not_pair_infix_append_cons (by decide) (by decide) methodSingle pathVersion

theorem splitRequestLine_requestLine
    {request : Request}
    (noSpace : space ∉ request.path) :
    splitRequestLine request.requestLine =
      (request.method.toString, request.path, request.version) := by
  have methodNoSpace : space ∉ request.method.toString := by
    intro present
    exact absurd (Method.upper_of_mem_toString present) (by decide)
  rw [splitRequestLine, requestLine, Search.cut_singleton_append methodNoSpace]
  dsimp only
  rw [Search.cut_singleton_append noSpace]

/-- A head that is written as lines of their own is read again, whatever
follows. -/
theorem create_written
    {again : StringView} {request : Request}
    (head : HeaderMap.Head request.requestLine request.headers)
    (body : Bytes)
    (written : again.bytes =
      request.requestLine ++ lineEnd ++ request.headers.serialize ++ lineEnd ++ body) :
    create again = .ok (.ok (assemble request.requestLine request.headers)) := by
  rw [create_eq, parse, written, headOf, head.cut_blockEnd body]
  dsimp only
  rw [head.cut_lineEnd]
  dsimp only
  rw [head.addLines_block]

theorem head_of_parsed
    {request : Request}
    (parsed : Parsed request) :
    HeaderMap.Head request.requestLine request.headers where
  startNonempty := by simp [requestLine]
  startLine := not_infix_requestLine parsed.pathLine parsed.versionLine
  nonempty := parsed.nonempty
  headers := parsed.headers

/-- A parsed request without query parameters is parsed again from its
serialized form, whatever follows. -/
theorem create_serialize_append
    {text again : StringView} {request : Request}
    (complete : blockEnd <:+: text.bytes)
    (parsed : create text = .ok (.ok request))
    (noParameters : request.parameters = ∅)
    (body : Bytes)
    (written : again.bytes = request.serialize ++ body) :
    create again = .ok (.ok request) := by
  have fields := parsed_of_create (headers_ne_nil complete parsed) parsed
  have assembled : assemble request.requestLine request.headers = request := by
    rw [assemble, splitRequestLine_requestLine fields.path.1]
    dsimp only
    rw [Search.cut_singleton_eq_none.mpr fields.path.2]
    dsimp only
    rw [Method.create_toString, ← noParameters]
  have lines : request.serialize ++ body =
      request.requestLine ++ lineEnd ++ request.headers.serialize ++ lineEnd ++ body := by
    simp [serialize, serializeParameters, requestLine, noParameters]
  rw [create_written (head_of_parsed fields) body (written.trans lines), assembled]

/-- A request with one header. -/
def oneHeaderText : StringView where
  bytes := ascii "GET / HTTP/1.1\r\nA: b\r\n\r\n"
  bounded := by decide

/-- What `create` makes of it. -/
def oneHeaderRequest : Request where
  method := .get
  version := ascii "HTTP/1.1"
  path := ascii "/"
  headers := HeaderMap.empty.add (ascii "A") (ascii "b")
  parameters := ∅

/-- The same text with a byte of content after it. -/
def oneHeaderContent : StringView where
  bytes := ascii "GET / HTTP/1.1\r\nA: b\r\n\r\n!"
  bounded := by decide

theorem create_oneHeaderText : create oneHeaderText = .ok (.ok oneHeaderRequest) := by
  have head : Search.cut lineEnd (headOf oneHeaderText.bytes) =
      some (ascii "GET / HTTP/1.1", ascii "A: b") := by decide
  have line : HeaderMap.lines (ascii "A: b") = [ascii "A: b"] :=
    Search.pieces_of_cut_eq_none (by decide) (by decide)
  have added : HeaderMap.addLines .empty [ascii "A: b"] =
      .ok (.ok oneHeaderRequest.headers) := rfl
  rw [create_eq, parse, head]
  dsimp only
  rw [line, added]
  rfl

theorem create_serialize_append_oneHeader :
    create oneHeaderContent = .ok (.ok oneHeaderRequest) :=
  create_serialize_append (by decide) create_oneHeaderText rfl (ascii "!") (by decide)

end Request
end Http
end Cppio
