import Cppio.Network.Http.Response

/-!
# Parsing a serialized response

The head that `serialize` writes has a line for the status and one for every
header, `Content-Length` among them.  As long as no field has a line end, names
have no colon and the version no space, `create` reads the head back, and the
content does not matter: the first empty line is the one before it.
-/

namespace Cppio
namespace Http

namespace HeaderMap

/-- A name and a value without line ends make one line. -/
theorem ofLine_of_single
    {key value : Bytes}
    (name : colon ∉ key)
    (keyLine : ¬lineEnd <:+: key)
    (valueLine : ¬lineEnd <:+: value) :
    OfLine (key, value) where
  name := name
  whole := by
    have spaced : ¬lineEnd <:+: [] ++ space :: value :=
      Search.not_pair_infix_append_cons (by decide) (by decide) (by decide) valueLine
    have joined : ¬lineEnd <:+: key ++ colon :: space :: value :=
      Search.not_pair_infix_append_cons (by decide) (by decide) keyLine spaced
    simpa [headerLine] using joined

theorem headers_add
    {map : HeaderMap} {key value : Bytes} {header : Bytes × Bytes} :
    header ∈ (map.add key value).headers ↔ header = (key, value) ∨ header ∈ map.headers := by
  rw [add, (Keyed.insertLast_perm headerKey _ _).mem_iff, List.mem_cons]

end HeaderMap

namespace Response

/-- The arguments of the call make no line and no part of the status line of
their own. -/
def Call.Plain : Call → Prop
  | .setVersion version => space ∉ version ∧ ¬lineEnd <:+: version
  | .addHeader key value => colon ∉ key ∧ ¬lineEnd <:+: key ∧ ¬lineEnd <:+: value
  | _ => True

instance : (call : Call) → Decidable call.Plain
  | .setVersion _ => inferInstanceAs (Decidable (_ ∧ _))
  | .setStatus _ => inferInstanceAs (Decidable True)
  | .setContent _ => inferInstanceAs (Decidable True)
  | .addHeader _ _ => inferInstanceAs (Decidable (_ ∧ _ ∧ _))
  | .serialize => inferInstanceAs (Decidable True)

/-- What plain calls keep of a response. -/
structure Plain (response : Response) : Prop where
  noSpace : space ∉ response.version
  versionLine : ¬lineEnd <:+: response.version
  headers : ∀ header ∈ response.headers.headers, HeaderMap.OfLine header

theorem plain_default : Plain default where
  noSpace := by decide
  versionLine := by decide
  headers := fun header present => by cases present

theorem statusLine_eq (response : Response) :
    response.statusLine =
      response.version ++ space :: (toString response.code.toNat ++ space :: ascii "OK") := by
  simp only [statusLine, List.append_assoc]
  rfl

theorem not_mem_toString
    {byte : UInt8}
    (notDigit : isDigit byte = false)
    (number : Nat) :
    byte ∉ toString number := by
  intro present
  rw [isDigit_of_mem_toString present] at notDigit
  cases notDigit

theorem not_infix_toString (number : Nat) : ¬lineEnd <:+: toString number := by
  intro occurs
  have noReturn : 13 ∉ toString number := not_mem_toString (by decide) number
  exact noReturn (occurs.subset (by decide))

theorem Plain.withContentLength
    {response : Response}
    (plain : Plain response) :
    Plain response.withContentLength where
  noSpace := plain.noSpace
  versionLine := plain.versionLine
  headers header present := by
    rcases HeaderMap.headers_add.mp present with rfl | old
    · exact HeaderMap.ofLine_of_single (by decide) (by decide) (not_infix_toString _)
    · exact plain.headers header old

theorem Plain.call
    {response : Response} {call : Call}
    (plain : Plain response)
    (arguments : call.Plain) :
    Plain (response.call call) := by
  cases call with
  | setVersion version => exact ⟨arguments.1, arguments.2, plain.headers⟩
  | setStatus code => exact ⟨plain.noSpace, plain.versionLine, plain.headers⟩
  | setContent content => exact ⟨plain.noSpace, plain.versionLine, plain.headers⟩
  | addHeader key value =>
      refine ⟨plain.noSpace, plain.versionLine, fun header present => ?_⟩
      rcases HeaderMap.headers_add.mp present with rfl | old
      · exact HeaderMap.ofLine_of_single arguments.1 arguments.2.1 arguments.2.2
      · exact plain.headers header old
  | serialize => exact plain.withContentLength

theorem plain_foldl
    {response : Response} {calls : List Call}
    (plain : Plain response)
    (arguments : ∀ call ∈ calls, call.Plain) :
    Plain (calls.foldl call response) := by
  induction calls generalizing response with
  | nil => exact plain
  | cons first rest inductionHypothesis =>
      rw [List.forall_mem_cons] at arguments
      exact inductionHypothesis (plain.call arguments.1) arguments.2

/-- The head of what `serialize` writes. -/
theorem Plain.head
    {response : Response}
    (plain : Plain response) :
    HeaderMap.Head response.withContentLength.statusLine
      response.withContentLength.headers where
  startNonempty := by simp [statusLine]
  startLine := by
    have reason : ¬lineEnd <:+: toString response.code.toNat ++ space :: ascii "OK" :=
      Search.not_pair_infix_append_cons (by decide) (by decide) (not_infix_toString _)
        (by decide)
    rw [statusLine_eq]
    exact Search.not_pair_infix_append_cons (by decide) (by decide) plain.versionLine reason
  nonempty := List.ne_nil_of_mem (HeaderMap.headers_add.mpr (Or.inl rfl))
  headers := plain.withContentLength.headers

/-- The status line is read back. -/
theorem splitRequestLine_statusLine
    {response : Response}
    (noSpace : space ∉ response.version) :
    Request.splitRequestLine response.statusLine =
      (response.version, toString response.code.toNat, ascii "OK") := by
  have codeNoSpace : space ∉ toString response.code.toNat := not_mem_toString (by decide) _
  rw [Request.splitRequestLine, statusLine_eq, Search.cut_singleton_append noSpace]
  dsimp only
  rw [Search.cut_singleton_append codeNoSpace]

/-- What `create` makes of a serialized response: all but the content. -/
theorem Plain.create_serialized
    {text : StringView} {response : Response}
    (plain : Plain response)
    (written : text.bytes = response.serialize.1) :
    create text = .ok (.ok { response.serialize.2 with content := [] }) := by
  have head := plain.head
  have line := splitRequestLine_statusLine plain.withContentLength.noSpace
  have small : response.withContentLength.code.toNat < 2 ^ 64 :=
    response.code.toNat_lt.trans (by decide)
  rw [create_eq, parse, written, serialize, Request.headOf, head.cut_blockEnd]
  dsimp only
  rw [head.cut_lineEnd]
  dsimp only
  rw [line]
  dsimp only
  rw [stoul_toString small]
  dsimp only
  rw [head.addLines_block]
  simp

/-- A response that is built with plain calls is parsed back from what it
serializes to, whatever its content. -/
theorem create_serialize
    {text : StringView} {calls : List Call}
    (plain : ∀ call ∈ calls, call.Plain)
    (written : text.bytes = (calls.foldl call default).serialize.1) :
    create text = .ok (.ok { (calls.foldl call default).serialize.2 with content := [] }) :=
  (plain_foldl plain_default plain).create_serialized written

/-- A response whose content looks like the end of a head. -/
def deceptiveCalls : List Call :=
  [.addHeader (ascii "Server") (ascii "cppio"), .setContent (ascii "\r\n\r\nServer: none"),
    .setStatus 404]

/-- What it serializes to. -/
def deceptiveText : StringView where
  bytes := (deceptiveCalls.foldl call default).serialize.1
  bounded := by decide

theorem create_serialize_deceptive :
    create deceptiveText =
      .ok (.ok { (deceptiveCalls.foldl call default).serialize.2 with content := [] }) :=
  create_serialize (by decide) rfl

/-! ## The content -/

/-- The response that `create` makes of the text has this content. -/
def RecoversContent (text : StringView) (content : Bytes) : Prop :=
  ∃ response, create text = .ok (.ok response) ∧ response.content = content

/-- `create` never sets the content, so only an empty one is recovered. -/
theorem recoversContent_iff
    {text : StringView} {calls : List Call}
    (plain : ∀ call ∈ calls, call.Plain)
    (written : text.bytes = (calls.foldl call default).serialize.1) :
    RecoversContent text (calls.foldl call default).content ↔
      (calls.foldl call default).content = [] := by
  have created := (plain_foldl plain_default plain).create_serialized written
  constructor
  · rintro ⟨response, parsed, content⟩
    obtain rfl := Except.ok.inj (Except.ok.inj (created.symm.trans parsed))
    exact content.symm
  · intro empty
    exact ⟨_, created, empty.symm⟩

/-- A response without content. -/
def bareText : StringView where
  bytes := (default.call (.setStatus 204)).serialize.1
  bounded := by decide

theorem recoversContent_bare : RecoversContent bareText [] := by
  have plain : ∀ call ∈ [Call.setStatus 204], call.Plain := by decide
  exact (recoversContent_iff plain rfl).mpr rfl

theorem not_recoversContent_deceptive :
    ¬RecoversContent deceptiveText (ascii "\r\n\r\nServer: none") := by
  have plain : Plain (deceptiveCalls.foldl call default) :=
    plain_foldl plain_default (by decide)
  rintro ⟨response, parsed, content⟩
  obtain rfl := Except.ok.inj (Except.ok.inj ((plain.create_serialized rfl).symm.trans parsed))
  exact absurd content (by decide)

end Response

end Http
end Cppio
