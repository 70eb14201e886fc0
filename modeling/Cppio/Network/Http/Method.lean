import Cppio.Network.Http.StringView

/-!
# Request methods

The names of `enum class method` and the reading of a name, which answers
`GET` for every text that is not a name.
-/

namespace Cppio
namespace Http

/-- The bytes of an ASCII literal. -/
def ascii (text : String) : Bytes :=
  text.toList.map fun ch => UInt8.ofNat ch.toNat

/-- `enum class method`. -/
inductive Method
  | get
  | head
  | post
  | put
  | delete
  | trace
  | options
  | connect
  | patch
  deriving DecidableEq

namespace Method

/-- `to_string(method)`. -/
def toString : Method → Bytes
  | .get => ascii "GET"
  | .head => ascii "HEAD"
  | .post => ascii "POST"
  | .put => ascii "PUT"
  | .delete => ascii "DELETE"
  | .trace => ascii "TRACE"
  | .options => ascii "OPTIONS"
  | .connect => ascii "CONNECT"
  | .patch => ascii "PATCH"

/-- `create(method)`. -/
def create (method : Bytes) : Method :=
  if method = toString .get then .get
  else if method = toString .head then .head
  else if method = toString .post then .post
  else if method = toString .put then .put
  else if method = toString .delete then .delete
  else if method = toString .trace then .trace
  else if method = toString .options then .options
  else if method = toString .connect then .connect
  else if method = toString .patch then .patch
  else .get

/-- Every method is read back from its name. -/
theorem create_toString (method : Method) : create method.toString = method := by
  cases method <;> decide

/-- A name is made of upper-case letters. -/
theorem upper_of_mem_toString
    {method : Method} {byte : UInt8}
    (present : byte ∈ method.toString) :
    65 ≤ byte ∧ byte ≤ 90 := by
  have all : (method.toString.all fun byte => decide (65 ≤ byte ∧ byte ≤ 90)) = true := by
    cases method <;> decide
  exact of_decide_eq_true (List.all_eq_true.mp all byte present)

end Method

end Http
end Cppio
