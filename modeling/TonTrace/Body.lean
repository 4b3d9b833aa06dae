import TonTrace.Error
import TonTrace.Json.Scalar
import TonTrace.Operation

/-! Decoded message bodies: the name of an operation and its payload. -/

set_option autoImplicit false

namespace TonTrace

structure Body where
  operation : String
  value : Json

class Payload (α : Type) where
  ofJson? : Json → Option α

namespace Body

variable {α : Type}

/-- The payload of a body, whatever its operation. -/
def decode [Payload α] (body : Body) : Except Error α :=
  match Payload.ofJson? body.value with
  | some payload => .ok payload
  | none => .error (.badBody body.operation)

def comment? (body : Body) : Option String :=
  if body.operation = Operation.textComment then
    match body.value with
    | .object members => (members.lookup "text").bind Json.string?
    | _ => none
  else none

def isEncryptedComment (body : Body) : Bool := body.operation = Operation.encryptedTextComment

def toJson (body : Body) : Json :=
  .object [("operation", .string body.operation), ("value", body.value)]

def ofJson? (json : Json) : Option Body := do
  let field ← json.record? ["operation", "value"]
  return {
    operation := ← Json.required Json.string? (field "operation")
    value := (field "value").getD .null }

end Body

end TonTrace
