import TonTrace.Flow
import TonTrace.Json.Scalar

/-! Ledgers as JSON: objects keyed by address, in address order. -/

set_option autoImplicit false

namespace TonTrace

open Json

def AddressMap.toJson {α : Type} (write : α → Json) (map : AddressMap α) : Json :=
  .object (map.entries.map fun (address, value) => (address.text, write value))

def NftCount.toJson (count : NftCount) : Json :=
  .object [("added", .integer count.added), ("removed", .integer count.removed)]

def AccountFlow.toJson (flow : AccountFlow) : Json :=
  .object [
    ("ton", ofRanged flow.ton),
    ("fees", ofRanged flow.fees),
    ("jettons", flow.jettons.toJson fun balance => .string (Decimal.text balance.val)),
    ("nfts", flow.nfts.toJson)]

def Flow.toJson (flow : Flow) : Json :=
  .object [("accounts", flow.accounts.toJson AccountFlow.toJson)]

end TonTrace
