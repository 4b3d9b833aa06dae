import TonTrace.Address
import TonTrace.Json.Record

/-! The JSON forms of hashes, addresses, amounts and bytes: all of them strings,
except that an amount is also read from a whole number. -/

set_option autoImplicit false

namespace TonTrace

namespace Hash

def toJson (hash : Hash) : Json := .string hash.text

def ofJson? : Json → Option Hash
  | .string text => ofText? text
  | _ => none

end Hash

namespace Address

def toJson (address : Address) : Json := .string address.text

def ofJson? : Json → Option Address
  | .string text => (parse text).toOption
  | _ => none

end Address

namespace JettonAmount

def toJson (amount : JettonAmount) : Json := .string (Decimal.text amount.val)

def ofJson? : Json → Option JettonAmount
  | .string text => ofText? text
  | .integer value => if value ≤ 0xffffffffffffffff then Ranged.ofInt? value else none
  | _ => none

end JettonAmount

namespace Json

def ofBytes (bytes : List UInt8) : Json := .string (String.ofList (Hex.ofBytes bytes))

def bytes? : Json → Option (List UInt8)
  | .string text => Hex.bytes? (Hex.dropMarkers text.toList)
  | _ => none

/-- The name of a case without data, alone or as the only member of an object. -/
def caseName? : Json → Option String
  | .string name => some name
  | .object [(name, .null)] => some name
  | _ => none

end Json

end TonTrace
