import TonTrace.Json

/-! Reading typed records.

A record is an object, whose unknown members are ignored, or an array with the
fields in their declared order, whose end may be missing. An absent field takes
its default; `null` is a value and stands for an absent one only in an optional
field.
-/

set_option autoImplicit false

namespace TonTrace.Json

variable {α : Type}

abbrev Fields := String → Option Json

def namesOnce (names : List String) (members : List (String × Json)) : Bool :=
  names.all fun name => (members.filter fun m => m.1 = name).length ≤ 1

def record? (names : List String) : Json → Option Fields
  | .object members =>
    if namesOnce names members then some fun name => members.lookup name else none
  | .array items =>
    if items.length ≤ names.length then some fun name => (names.zip items).lookup name else none
  | _ => none

def required (read : Json → Option α) (field : Option Json) : Option α := field.bind read

def defaulted (fallback : α) (read : Json → Option α) : Option Json → Option α
  | none => some fallback
  | some value => read value

/-- A field that may be absent or `null`. -/
def optional (read : Json → Option α) : Option Json → Option (Option α)
  | none | some .null => some none
  | some value => (read value).map some

def bool? : Json → Option Bool
  | .bool value => some value
  | _ => none

def string? : Json → Option String
  | .string value => some value
  | _ => none

def ranged? {lo hi : Int} : Json → Option (Ranged lo hi)
  | .integer value => Ranged.ofInt? value
  | _ => none

def list? (read : Json → Option α) : Json → Option (List α)
  | .array items => items.mapM read
  | _ => none

def ofOption (write : α → Json) : Option α → Json
  | none => .null
  | some value => write value

def ofRanged {lo hi : Int} (value : Ranged lo hi) : Json := .integer value.val

end TonTrace.Json
