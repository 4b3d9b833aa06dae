import TonTrace.Decimal

/-! JSON values.

Whole numbers are kept apart from all other numbers, because no integer field
accepts `1.0` or `1e2`. Members keep the order in which they were written;
`Json.canonical?` sorts them and resolves repeated names.
-/

set_option autoImplicit false

namespace TonTrace

inductive Json where
  | null
  | bool (value : Bool)
  /-- A whole number of at most 64 bits. -/
  | integer (value : Int)
  /-- Any other number, as written. -/
  | decimal (literal : String)
  | string (value : String)
  | array (items : List Json)
  | object (members : List (String × Json))
  /-- Text with the form of JSON that denotes no value: an escape in it names
  half of a surrogate pair. -/
  | garbled
  deriving Inhabited

namespace Json

def IsWhole (n : Int) : Prop := -0x8000000000000000 ≤ n ∧ n ≤ 0xffffffffffffffff

instance (n : Int) : Decidable (IsWhole n) := inferInstanceAs (Decidable (_ ∧ _))

def insertMember (name : String) (value : Json) : List (String × Json) → List (String × Json)
  | [] => [(name, value)]
  | (other, old) :: rest =>
    if name < other then (name, value) :: (other, old) :: rest
    else if name = other then (name, value) :: rest
    else (other, old) :: insertMember name value rest

/-- Members sorted by name; of several with one name the last is kept. -/
def sortMembers (members : List (String × Json)) : List (String × Json) :=
  members.foldl (fun sorted (name, value) => insertMember name value sorted) []

mutual

def canonical? : Json → Option Json
  | .null => some .null
  | .bool value => some (.bool value)
  | .integer value => some (.integer value)
  | .decimal literal => some (.decimal literal)
  | .string value => some (.string value)
  | .array items => (canonicalItems? items).map .array
  | .object members => (canonicalMembers? members).map fun ms => .object (sortMembers ms)
  | .garbled => none

def canonicalItems? : List Json → Option (List Json)
  | [] => some []
  | item :: rest => do return (← canonical? item) :: (← canonicalItems? rest)

def canonicalMembers? : List (String × Json) → Option (List (String × Json))
  | [] => some []
  | (name, value) :: rest => do return (name, ← canonical? value) :: (← canonicalMembers? rest)

end

end Json

end TonTrace
