import Cppio.Network.Http.RequestStability

/-!
# Parameters in the request line

`serialize` writes the parameters without a separator between them, ends every
encoded key and value with a zero byte, and `create` decodes values only.  What
is read back from a map with parameters has one key, which is longer than the
first key of the map.
-/

namespace Cppio
namespace Http
namespace Request

/-- Two maps with the same values, whatever their iteration order. -/
def SameParameters (left right : ParameterMap) : Prop :=
  ∀ key, left.lookup key = right.lookup key

/-- The request after edits through `parameters()`. -/
def withParameters (request : Request) (parameters : ParameterMap) : Request :=
  { request with parameters := parameters }

/-- What `serialize` writes for the parameters after the question mark. -/
def query (parameters : ParameterMap) : Bytes :=
  parameters.entries.flatMap fun parameter =>
    urlEncode parameter.1 ++ [equalsSign] ++ urlEncode parameter.2

theorem not_mem_query
    {byte : UInt8}
    (reserved : isEncoded byte = false)
    (notEquals : byte ≠ equalsSign)
    (parameters : ParameterMap) :
    byte ∉ query parameters := by
  intro present
  obtain ⟨parameter, -, here⟩ := List.mem_flatMap.mp present
  have absent : ∀ url, byte ∉ urlEncode url := fun url inside => by
    rw [isEncoded_of_mem_urlEncode inside] at reserved
    cases reserved
  rcases List.mem_append.mp here with first | value
  · rcases List.mem_append.mp first with key | equals
    · exact absent _ key
    · exact notEquals (List.mem_singleton.mp equals)
  · exact absent _ value

/-- The only key that is read back is the encoded first key. -/
theorem decodeParameters_query
    {parameters : ParameterMap} {key value : Bytes} {rest : List (Sigma fun _ : Bytes => Bytes)}
    (first : parameters.entries = ⟨key, value⟩ :: rest) :
    ∃ decoded, decodeParameters (query parameters) ∅ =
      (∅ : ParameterMap).insert (urlEncode key) decoded := by
  have noAmpersand : ampersand ∉ query parameters :=
    not_mem_query (by decide) (by decide) parameters
  have noEquals : equalsSign ∉ urlEncode key := fun inside =>
    absurd (isEncoded_of_mem_urlEncode inside) (by decide)
  have starts : ∃ more, query parameters = urlEncode key ++ equalsSign :: more := by
    refine ⟨urlEncode value ++ rest.flatMap fun parameter =>
      urlEncode parameter.1 ++ [equalsSign] ++ urlEncode parameter.2, ?_⟩
    simp [query, first]
  obtain ⟨more, starts⟩ := starts
  have nonempty : query parameters ≠ [] := by simp [starts]
  have split : splitParameter (query parameters) = (urlEncode key, more) := by
    rw [splitParameter, starts, Search.cut_singleton_append noEquals]
  refine ⟨urlDecode more, ?_⟩
  rw [decodeParameters_of_cut_eq_none nonempty (Search.cut_singleton_eq_none.mpr noAmpersand),
    split]

/-- A map with parameters is not read back. -/
theorem not_sameParameters_decodeParameters
    {parameters : ParameterMap}
    (nonempty : parameters.entries ≠ []) :
    ¬SameParameters (decodeParameters (query parameters) ∅) parameters := by
  intro same
  obtain ⟨⟨key, value⟩, rest, first⟩ := List.exists_cons_of_ne_nil nonempty
  obtain ⟨decoded, read⟩ := decodeParameters_query first
  have longer : key ≠ urlEncode key := fun equal => by
    have length := length_lt_urlEncode key
    rw [← equal] at length
    exact Nat.lt_irrefl _ length
  have absent : (decodeParameters (query parameters) ∅).lookup key = none := by
    rw [read, AList.lookup_insert_ne longer, AList.lookup_empty]
  have present : parameters.lookup key = some value := by
    rw [AList.lookup, first, List.dlookup_cons_eq]
  rw [same key, present] at absent
  cases absent

/-- The request with what `serialize` writes between the spaces as its path. -/
def writtenTarget (request : Request) : Request :=
  { request with path := request.path ++ serializeParameters request.parameters }

theorem serialize_eq_requestLine (request : Request) :
    request.serialize = request.writtenTarget.requestLine ++ lineEnd ++
      request.writtenTarget.headers.serialize ++ lineEnd ++ [] := by
  simp [serialize, writtenTarget, requestLine]

theorem serializeParameters_cons
    {parameters : ParameterMap}
    (nonempty : parameters.entries ≠ []) :
    serializeParameters parameters = questionMark :: query parameters := by
  rw [serializeParameters, if_pos (fun length => nonempty (List.eq_nil_of_length_eq_zero length))]
  rfl

/-- An edited request is read again from what it serializes to. -/
theorem create_withParameters
    {again : StringView} {request : Request}
    (fields : Parsed request)
    (parameters : ParameterMap)
    (written : again.bytes = (request.withParameters parameters).serialize) :
    create again = .ok (.ok { request with
      parameters := if parameters.entries = [] then ∅
        else decodeParameters (query parameters) ∅ }) := by
  have noReturn : 13 ∉ query parameters := not_mem_query (by decide) (by decide) parameters
  have querySpace : space ∉ query parameters := not_mem_query (by decide) (by decide) parameters
  have queryLine : ¬lineEnd <:+: query parameters := fun occurs =>
    noReturn (occurs.subset (by decide))
  have target : (request.withParameters parameters).writtenTarget.path =
      if parameters.entries = [] then request.path
      else request.path ++ questionMark :: query parameters := by
    split_ifs with empty
    · simp [writtenTarget, withParameters, serializeParameters, empty]
    · rw [writtenTarget, withParameters, serializeParameters_cons empty]
  have targetLine : ¬lineEnd <:+: (request.withParameters parameters).writtenTarget.path := by
    rw [target]
    split_ifs
    · exact fields.pathLine
    · exact Search.not_pair_infix_append_cons (by decide) (by decide) fields.pathLine queryLine
  have noSpace : space ∉ (request.withParameters parameters).writtenTarget.path := by
    rw [target]
    split_ifs
    · exact fields.path.1
    · simp only [List.mem_append, List.mem_cons, not_or]
      exact ⟨fields.path.1, by decide, querySpace⟩
  have head : HeaderMap.Head (request.withParameters parameters).writtenTarget.requestLine
      (request.withParameters parameters).writtenTarget.headers :=
    { startNonempty := by simp [requestLine]
      startLine := not_infix_requestLine targetLine fields.versionLine
      nonempty := fields.nonempty
      headers := fields.headers }
  rw [create_written head [] (written.trans (serialize_eq_requestLine _)), assemble,
    splitRequestLine_requestLine noSpace, target]
  dsimp only
  split_ifs with empty
  · rw [Search.cut_singleton_eq_none.mpr fields.path.2]
    dsimp only
    rw [Method.create_toString]
    rfl
  · rw [Search.cut_singleton_append fields.path.2]
    dsimp only
    rw [Method.create_toString]
    rfl

/-- The parameters that are written and read back agree exactly when there are
none. -/
theorem sameParameters_iff
    {text again : StringView} {request : Request}
    (parsed : create text = .ok (.ok request))
    (nonempty : request.headers.headers ≠ [])
    (parameters : ParameterMap)
    (written : again.bytes = (request.withParameters parameters).serialize) :
    (∃ result, create again = .ok (.ok result) ∧ SameParameters result.parameters parameters ∧
        result.path = request.path) ↔
      parameters.entries = [] := by
  rw [create_withParameters (parsed_of_create nonempty parsed) parameters written]
  constructor
  · rintro ⟨result, read, same, -⟩
    by_contra some
    obtain rfl := Except.ok.inj (Except.ok.inj read)
    simp only [if_neg some] at same
    exact not_sameParameters_decodeParameters some same
  · intro empty
    refine ⟨_, rfl, fun key => ?_, rfl⟩
    simp [empty, AList.lookup]

/-- The request of `oneHeaderText` with a parameter. -/
def oneParameterText : StringView where
  bytes := (oneHeaderRequest.withParameters
    ((∅ : ParameterMap).insert (ascii "k") (ascii "v"))).serialize
  bounded := by decide

theorem sameParameters_iff_oneParameter :
    ¬∃ result, create oneParameterText = .ok (.ok result) ∧
      SameParameters result.parameters ((∅ : ParameterMap).insert (ascii "k") (ascii "v")) ∧
      result.path = oneHeaderRequest.path :=
  fun agrees => absurd
    ((sameParameters_iff create_oneHeaderText (by decide) _ rfl).mp agrees) (by decide)

/-- Not every map of parameters is read back. -/
theorem not_always_sameParameters :
    ¬∀ (text again : StringView) (request : Request) (parameters : ParameterMap),
      blockEnd <:+: text.bytes → create text = .ok (.ok request) →
        request.headers.headers ≠ [] →
          again.bytes = (request.withParameters parameters).serialize →
            ∃ result, create again = .ok (.ok result) ∧
              SameParameters result.parameters parameters ∧ result.path = request.path := by
  intro always
  obtain ⟨result, read, same, -⟩ := always oneHeaderText oneParameterText oneHeaderRequest _
    (by decide) create_oneHeaderText (by decide) rfl
  have fields := parsed_of_create (by decide) create_oneHeaderText
  rw [create_withParameters fields _ rfl] at read
  obtain rfl := Except.ok.inj (Except.ok.inj read)
  exact not_sameParameters_decodeParameters (by decide) same

end Request
end Http
end Cppio
