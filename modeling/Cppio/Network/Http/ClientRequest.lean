import Cppio.Network.Http.RequestStability

/-!
# Requests that a client builds

A request that is built with the setters has no headers, and no member adds one.
What it serializes to ends with the request line and an empty line: the parser
takes the text up to the empty line, finds no line end in what is left, and
refuses it.
-/

namespace Cppio
namespace Http
namespace Request

/-- `request::request()`. -/
def default : Request where
  method := .get
  version := ascii "HTTP/1.1"
  path := []
  headers := HeaderMap.empty
  parameters := ∅

/-- `request::set_method`. -/
def setMethod (request : Request) (method : Method) : Request :=
  { request with method := method }

/-- `request::set_path`. -/
def setPath (request : Request) (path : Bytes) : Request :=
  { request with path := path }

/-- `request::set_version`. -/
def setVersion (request : Request) (version : Bytes) : Request :=
  { request with version := version }

/-- The request that a client builds with the setters. -/
def clientBuilt (method : Method) (path version : Bytes) : Request :=
  ((default.setMethod method).setPath path).setVersion version

/-- The parser makes a request of the text that has the three parts and nothing
else. -/
def AcceptedAs (text : StringView) (method : Method) (path version : Bytes) : Prop :=
  ∃ request, create text = .ok (.ok request) ∧ request.method = method ∧
    request.path = path ∧ request.version = version ∧
    request.headers = HeaderMap.empty ∧ request.parameters = ∅

/-- Without headers, the empty line follows the request line. -/
theorem serialize_clientBuilt (method : Method) (path version : Bytes) :
    (clientBuilt method path version).serialize =
      (clientBuilt method path version).requestLine ++ 13 :: 10 :: 13 :: 10 :: [] := by
  simp [clientBuilt, serialize, requestLine, setVersion, setPath, setMethod, default,
    serializeParameters, HeaderMap.serialize, HeaderMap.empty, lineEnd]

/-- The parser refuses every request that is built with the setters, unless a
line end in a field makes a header of its own. -/
theorem not_acceptedAs_clientBuilt
    {text : StringView} {path version : Bytes}
    (method : Method)
    (pathLine : ¬lineEnd <:+: path)
    (versionLine : ¬lineEnd <:+: version)
    (written : text.bytes = (clientBuilt method path version).serialize) :
    ¬AcceptedAs text method path version := by
  rintro ⟨request, parsed, -⟩
  have single : ¬lineEnd <:+: (clientBuilt method path version).requestLine :=
    not_infix_requestLine pathLine versionLine
  have head : headOf text.bytes = (clientBuilt method path version).requestLine := by
    have found : Search.cut blockEnd text.bytes =
        some ((clientBuilt method path version).requestLine, []) := by
      rw [written, serialize_clientBuilt]
      exact Search.cut_double_append (by decide) single []
    rw [headOf, found]
  obtain ⟨line, block, headers, split, -⟩ := exists_parts_of_create parsed
  rw [head] at split
  obtain ⟨parts, -⟩ := Search.cut_pair_eq_some split
  exact single ⟨line, block, by simp [parts, lineEnd]⟩

/-- What a client's first request serializes to. -/
def rootText : StringView where
  bytes := (clientBuilt .get (ascii "/") (ascii "HTTP/1.1")).serialize
  bounded := by decide

theorem not_acceptedAs_rootText :
    ¬AcceptedAs rootText .get (ascii "/") (ascii "HTTP/1.1") :=
  not_acceptedAs_clientBuilt .get (by decide) (by decide) rfl

/-- Not every request that is built with the setters is accepted. -/
theorem not_always_acceptedAs :
    ¬∀ (text : StringView) (method : Method) (path version : Bytes),
      space ∉ path → questionMark ∉ path → ¬lineEnd <:+: path → ¬lineEnd <:+: version →
        text.bytes = (clientBuilt method path version).serialize →
          AcceptedAs text method path version := by
  intro always
  obtain ⟨request, parsed, -⟩ := always rootText .get (ascii "/") (ascii "HTTP/1.1")
    (by decide) (by decide) (by decide) (by decide) rfl
  have noLine : Search.cut lineEnd (headOf rootText.bytes) = none := by decide
  rw [create_eq, parse, noLine] at parsed
  cases parsed

end Request
end Http
end Cppio
