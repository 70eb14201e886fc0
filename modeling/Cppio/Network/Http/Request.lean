import Cppio.Network.Http.Encoding
import Cppio.Network.Http.HeaderMap
import Cppio.Network.Http.Method
import Mathlib.Data.List.AList

/-!
# HTTP requests

`request::create` and `request::serialize`.  The parser takes the text up to
the first empty line, or all of it, cuts the request line at its first two
spaces, reads the headers and then the query string of the path.  The module
relates the computations with positions to cuts of the text.
-/

namespace Cppio
namespace Http

/-- `request::parameter_map_t`, in some iteration order. -/
abbrev ParameterMap := AList fun _ : Bytes => Bytes

/-- `request`. -/
structure Request where
  method : Method
  version : Bytes
  path : Bytes
  headers : HeaderMap
  parameters : ParameterMap

namespace Request

/-- The byte `?`. -/
def questionMark : UInt8 := 63

/-- The byte `&`. -/
def ampersand : UInt8 := 38

/-- The byte `=`. -/
def equalsSign : UInt8 := 61

/-- The three parts that `create` takes from the request line. -/
def readRequestLine (httpLine : StringView) : Throws (Bytes × StringView × Bytes) := do
  let methodPos := httpLine.findFirstOf space 0
  let pathPos := httpLine.findFirstOf space (sizeAdd methodPos 1)
  let method ← httpLine.substr 0 methodPos
  let path ← httpLine.substr (sizeAdd methodPos 1) (sizeSub (sizeSub pathPos methodPos) 1)
  let version ← httpLine.substr (sizeAdd pathPos 1) npos
  return (method.bytes, path, version.bytes)

/-- The key and the value that the query loop takes from a segment. -/
def readParameter (data : StringView) : Throws (Bytes × Bytes) := do
  let equalPos := data.findFirstOf equalsSign 0
  let key ← data.substr 0 equalPos
  let value ←
    if equalPos ≠ npos then data.substr (sizeAdd equalPos 1) npos
    else pure StringView.empty
  return (key.bytes, value.bytes)

/-- The rest of the query string is shorter after a separator was found. -/
theorem parametersLoop_decreasing
    {args rest : StringView}
    (next : args.substr (sizeAdd (args.findFirstOf ampersand 0) 1) npos = .ok rest)
    (found : args.findFirstOf ampersand 0 ≠ npos) :
    rest.bytes.length < args.bytes.length := by
  obtain ⟨-, bytes⟩ := StringView.substr_eq_ok.mp next
  cases split : Search.cut [ampersand] args.bytes with
  | none => exact absurd (args.findFirstOf_of_cut_eq_none 0 (by simpa using split)) found
  | some parts =>
      obtain ⟨before, after⟩ := parts
      obtain ⟨whole, -⟩ := Search.cut_singleton_eq_some split
      have bound := args.bounded
      have length := congrArg List.length whole
      rw [args.findFirstOf_of_cut_eq_some 0 (by simpa using split)] at bytes
      rw [bytes, List.length_take, List.length_drop]
      simp only [List.length_append, List.length_cons, npos, sizeAdd] at *
      omega

/-- The query loop of `create`. -/
def parametersLoop (args : StringView) (parameters : ParameterMap) : Throws ParameterMap :=
  if args.bytes.isEmpty then .ok parameters
  else do
    let separatorPos := args.findFirstOf ampersand 0
    let data ← args.substr 0 separatorPos
    let (key, value) ← readParameter data
    match _next : args.substr (sizeAdd separatorPos 1) npos with
    | .error thrown => .error thrown
    | .ok rest =>
        if _found : separatorPos = npos then
          return parameters.insert key (urlDecode value)
        else parametersLoop rest (parameters.insert key (urlDecode value))
termination_by args.bytes.length
decreasing_by exact parametersLoop_decreasing _next _found

/-- `request::create`. -/
def create (text : StringView) : Throws (Outcome Request) := do
  let pos := text.find blockEnd
  let currentView ← text.substr 0 pos
  let httpPos := currentView.find lineEnd
  if httpPos = npos then
    return .error .invalidArgument
  let httpLine ← currentView.substr 0 httpPos
  let (method, path, version) ← readRequestLine httpLine
  let headerText ← currentView.substr (sizeAdd httpPos 2) npos
  match ← HeaderMap.create headerText with
  | .error _ => return .error .invalidArgument
  | .ok headers =>
      let argDelim := path.findFirstOf questionMark 0
      if argDelim ≠ npos then
        let args ← path.substr (sizeAdd argDelim 1) npos
        let parameters ← parametersLoop args ∅
        let path ← path.substr 0 argDelim
        return .ok ⟨Method.create method, version, path.bytes, headers, parameters⟩
      else
        return .ok ⟨Method.create method, version, path.bytes, headers, ∅⟩

/-- The query string that `serialize` writes. -/
def serializeParameters (parameters : ParameterMap) : Bytes :=
  if parameters.entries.length ≠ 0 then
    questionMark :: parameters.entries.flatMap fun parameter =>
      urlEncode parameter.1 ++ [equalsSign] ++ urlEncode parameter.2
  else []

/-- `request::serialize`. -/
def serialize (request : Request) : Bytes :=
  request.method.toString ++ [space] ++ request.path ++
    serializeParameters request.parameters ++
      [space] ++ request.version ++ lineEnd ++ request.headers.serialize ++ lineEnd

end Request

end Http
end Cppio
