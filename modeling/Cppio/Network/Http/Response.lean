import Cppio.Network.Http.HeaderLines
import Cppio.Network.Http.RequestParsing
import Cppio.Network.Numbers

/-!
# HTTP responses

`response::create` and `response::serialize`, and the members that edit a
response.  The status line is read at the positions at which the request line
is; its code goes through `std::stoul`, which throws.  `serialize` adds a
`Content-Length` header to the response before it writes it.
-/

namespace Cppio
namespace Http

/-- `response`. -/
structure Response where
  version : Bytes
  code : UInt32
  headers : HeaderMap
  content : Bytes

/-- What `response::create` may throw: `std::out_of_range` or
`std::invalid_argument`. -/
inductive Thrown
  | outOfRange
  | invalidArgument
  deriving DecidableEq

/-- An exception of `substr`. -/
def Thrown.ofSubstr : OutOfRange → Thrown
  | .outOfRange => .outOfRange

/-- An exception of `stoul`. -/
def Thrown.ofStoul : StoulError → Thrown
  | .invalidArgument => .invalidArgument
  | .outOfRange => .outOfRange

namespace Response

/-- The name `Content-Length`. -/
def contentLength : Bytes := ascii "Content-Length"

/-- `response::response()`. -/
def default : Response where
  version := ascii "HTTP/1.1"
  code := 200
  headers := HeaderMap.empty
  content := []

/-- Version, code and reason of the status line, at the positions of the parts of
a request line. -/
def readStatusLine (httpLine : StringView) : Throws (Bytes × StringView × Bytes) :=
  Request.readRequestLine httpLine

/-- `response::create`. -/
def create (text : StringView) : Except Thrown (Outcome Response) := do
  let pos := text.find blockEnd
  let currentView ← (text.substr 0 pos).mapError Thrown.ofSubstr
  let httpPos := currentView.find lineEnd
  if httpPos = npos then
    return .error .invalidArgument
  let httpLine ← (currentView.substr 0 httpPos).mapError Thrown.ofSubstr
  let (version, code, _status) ← (readStatusLine httpLine).mapError Thrown.ofSubstr
  let code ← (stoul code.bytes).mapError Thrown.ofStoul
  let headerText ← (currentView.substr (sizeAdd httpPos 2) npos).mapError Thrown.ofSubstr
  match ← (HeaderMap.create headerText).mapError Thrown.ofSubstr with
  | .error _ => return .error .invalidArgument
  | .ok headers => return .ok ⟨version, UInt32.ofNat code, headers, []⟩

/-- The status line that `serialize` writes. -/
def statusLine (response : Response) : Bytes :=
  response.version ++ [space] ++ toString response.code.toNat ++ ascii " OK"

/-- What `serialize` makes of the response before it writes it. -/
def withContentLength (response : Response) : Response :=
  { response with
    headers := response.headers.add contentLength (toString response.content.length) }

/-- `response::serialize`: the text, and the response that is left. -/
def serialize (response : Response) : Bytes × Response :=
  let response := response.withContentLength
  (response.statusLine ++ lineEnd ++ response.headers.serialize ++ lineEnd ++ response.content,
    response)

/-- A call of a member that changes a response. -/
inductive Call
  | setVersion (version : Bytes)
  | setStatus (code : UInt32)
  | setContent (content : Bytes)
  /-- `headers().add(key, value)`. -/
  | addHeader (key value : Bytes)
  | serialize

/-- What a call leaves of the response. -/
def call (response : Response) : Call → Response
  | .setVersion version => { response with version := version }
  | .setStatus code => { response with code := code }
  | .setContent content => { response with content := content }
  | .addHeader key value => { response with headers := response.headers.add key value }
  | .serialize => response.serialize.2

/-! ## Cuts of the text -/

/-- `create` on cuts of the text. -/
def parse (text : Bytes) : Except Thrown (Outcome Response) :=
  match Search.cut lineEnd (Request.headOf text) with
  | none => .ok (.error .invalidArgument)
  | some (line, block) =>
      match stoul (Request.splitRequestLine line).2.1 with
      | .error thrown => .error (Thrown.ofStoul thrown)
      | .ok code =>
          match HeaderMap.addLines .empty (HeaderMap.lines block) with
          | .error thrown => .error (Thrown.ofSubstr thrown)
          | .ok (.error _) => .ok (.error .invalidArgument)
          | .ok (.ok headers) =>
              .ok (.ok ⟨(Request.splitRequestLine line).1, UInt32.ofNat code, headers, []⟩)

/-- The positions of `create` name the parts that `parse` takes. -/
theorem create_eq (text : StringView) : create text = parse text.bytes := by
  obtain ⟨view, viewSub, viewBytes⟩ := Request.substr_head text
  rw [create, parse, ← viewBytes, viewSub]
  dsimp only [bind, Except.bind, Except.mapError]
  cases split : Search.cut lineEnd view.bytes with
  | none =>
      rw [if_pos (StringView.find_of_cut_eq_none split)]
      rfl
  | some parts =>
      obtain ⟨line, block⟩ := parts
      obtain ⟨lineView, blockView, rfl, rfl, parts⟩ := view.exists_parts split
      have next : sizeAdd lineView.bytes.length 2 = lineView.bytes.length + 2 := parts.next
      have blockSub : view.substr (lineView.bytes.length + 2) npos = .ok blockView := parts.second
      obtain ⟨code, statusLine, codeBytes⟩ := Request.readRequestLine_eq lineView
      simp only [parts.found, parts.notEnd, if_false, parts.first, readStatusLine, statusLine, next,
        blockSub, HeaderMap.create_eq, codeBytes]
      cases stoul (Request.splitRequestLine lineView.bytes).2.1 with
      | error thrown => rfl
      | ok number =>
          dsimp only
          cases HeaderMap.addLines .empty (HeaderMap.lines blockView.bytes) with
          | error thrown => rfl
          | ok outcome =>
              cases outcome with
              | error code => rfl
              | ok headers => rfl

end Response

end Http
end Cppio
