import TonTrace.Trace

/-! Traces as JSON. Every field is written; a field with a default may be left
out on input. -/

set_option autoImplicit false

namespace TonTrace

open Json

namespace Interface

def all : List Interface :=
  [.wallet, .walletV4, .walletV5, .jettonWallet, .jettonMaster, .nftItem, .nftCollection, .nftSale,
    .teleitem, .dnsItem, .stonfiPool, .stonfiRouter, .stonfiLpAccount, .dedustVault, .dedustPool,
    .tonstakersPool, .tfNominator, .whalesNominators, .elector, .subscriptionV1]

def name : Interface → String
  | .wallet => "wallet"
  | .walletV4 => "wallet_v4"
  | .walletV5 => "wallet_v5"
  | .jettonWallet => "jetton_wallet"
  | .jettonMaster => "jetton_master"
  | .nftItem => "nft_item"
  | .nftCollection => "nft_collection"
  | .nftSale => "nft_sale"
  | .teleitem => "teleitem"
  | .dnsItem => "dns_item"
  | .stonfiPool => "stonfi_pool"
  | .stonfiRouter => "stonfi_router"
  | .stonfiLpAccount => "stonfi_lp_account"
  | .dedustVault => "dedust_vault"
  | .dedustPool => "dedust_pool"
  | .tonstakersPool => "tonstakers_pool"
  | .tfNominator => "tf_nominator"
  | .whalesNominators => "whales_nominators"
  | .elector => "elector"
  | .subscriptionV1 => "subscription_v1"

def ofName? (name : String) : Option Interface := all.find? fun i => i.name = name

def toJson (interface : Interface) : Json := .string interface.name

def ofJson? (json : Json) : Option Interface := json.caseName?.bind ofName?

end Interface

namespace AccountStatus

def all : List AccountStatus := [.nonexist, .uninit, .active, .frozen]

def name : AccountStatus → String
  | .nonexist => "nonexist"
  | .uninit => "uninit"
  | .active => "active"
  | .frozen => "frozen"

def ofName? (name : String) : Option AccountStatus := all.find? fun s => s.name = name

def toJson (status : AccountStatus) : Json := .string status.name

def ofJson? (json : Json) : Option AccountStatus := json.caseName?.bind ofName?

end AccountStatus

namespace Message

def toJson (message : Message) : Json :=
  .object [
    ("source", ofOption Address.toJson message.source),
    ("destination", ofOption Address.toJson message.destination),
    ("value", ofRanged message.value),
    ("bounce", .bool message.bounce),
    ("bounced", .bool message.bounced),
    ("external", .bool message.external),
    ("op_code", ofOption ofRanged message.opCode),
    ("decoded_body", ofOption Body.toJson message.body),
    ("init", ofBytes message.init)]

def ofJson? (json : Json) : Option Message := do
  let field ← json.record? ["source", "destination", "value", "bounce", "bounced", "external",
    "op_code", "decoded_body", "init"]
  return {
    source := ← optional Address.ofJson? (field "source")
    destination := ← optional Address.ofJson? (field "destination")
    value := ← defaulted 0 ranged? (field "value")
    bounce := ← defaulted false bool? (field "bounce")
    bounced := ← defaulted false bool? (field "bounced")
    external := ← defaulted false bool? (field "external")
    opCode := ← optional ranged? (field "op_code")
    body := ← optional Body.ofJson? (field "decoded_body")
    init := ← defaulted [] bytes? (field "init") }

end Message

namespace Fees

def toJson (fees : Fees) : Json :=
  .object [
    ("compute", ofRanged fees.compute),
    ("storage", ofRanged fees.storage),
    ("deposit", ofRanged fees.deposit)]

def ofJson? (json : Json) : Option Fees := do
  let field ← json.record? ["compute", "storage", "deposit"]
  return {
    compute := ← defaulted 0 ranged? (field "compute")
    storage := ← defaulted 0 ranged? (field "storage")
    deposit := ← defaulted 0 ranged? (field "deposit") }

end Fees

namespace SaleInfo

def toJson (sale : SaleInfo) : Json :=
  .object [
    ("nft", sale.nft.toJson),
    ("owner", ofOption Address.toJson sale.owner),
    ("marketplace", sale.marketplace.toJson),
    ("price", ofRanged sale.price)]

def ofJson? (json : Json) : Option SaleInfo := do
  let field ← json.record? ["nft", "owner", "marketplace", "price"]
  return {
    nft := ← required Address.ofJson? (field "nft")
    owner := ← optional Address.ofJson? (field "owner")
    marketplace := ← required Address.ofJson? (field "marketplace")
    price := ← required ranged? (field "price") }

end SaleInfo

namespace AccountInfo

def toJson (info : AccountInfo) : Json :=
  .object [
    ("jetton_master", ofOption Address.toJson info.jettonMaster),
    ("nft_sale", ofOption SaleInfo.toJson info.sale)]

def ofJson? (json : Json) : Option AccountInfo := do
  let field ← json.record? ["jetton_master", "nft_sale"]
  return {
    jettonMaster := ← optional Address.ofJson? (field "jetton_master")
    sale := ← optional SaleInfo.ofJson? (field "nft_sale") }

end AccountInfo

namespace Transaction

def toJson (tx : Transaction) : Json :=
  .object [
    ("hash", tx.hash.toJson),
    ("lt", ofRanged tx.logicalTime),
    ("utime", ofRanged tx.time),
    ("account", tx.account.toJson),
    ("interfaces", .array (tx.interfaces.map Interface.toJson)),
    ("success", .bool tx.success),
    ("orig_status", tx.statusBefore.toJson),
    ("end_status", tx.statusAfter.toJson),
    ("in_msg", ofOption Message.toJson tx.inMessage),
    ("out_msgs", .array (tx.outMessages.map Message.toJson)),
    ("fees", tx.fees.toJson),
    ("additional_info", ofOption AccountInfo.toJson tx.info)]

def ofJson? (json : Json) : Option Transaction := do
  let field ← json.record? ["hash", "lt", "utime", "account", "interfaces", "success",
    "orig_status", "end_status", "in_msg", "out_msgs", "fees", "additional_info"]
  return {
    hash := ← required Hash.ofJson? (field "hash")
    logicalTime := ← defaulted 0 ranged? (field "lt")
    time := ← defaulted 0 ranged? (field "utime")
    account := ← required Address.ofJson? (field "account")
    interfaces := ← defaulted [] (list? Interface.ofJson?) (field "interfaces")
    success := ← required bool? (field "success")
    statusBefore := ← defaulted .nonexist AccountStatus.ofJson? (field "orig_status")
    statusAfter := ← defaulted .nonexist AccountStatus.ofJson? (field "end_status")
    inMessage := ← optional Message.ofJson? (field "in_msg")
    outMessages := ← defaulted [] (list? Message.ofJson?) (field "out_msgs")
    fees := ← defaulted {} Fees.ofJson? (field "fees")
    info := ← optional AccountInfo.ofJson? (field "additional_info") }

end Transaction

namespace Trace

mutual

def toJson : Trace → Json
  | .node tx children =>
    .object [("transaction", tx.toJson), ("children", .array (toJsonAll children))]

def toJsonAll : List Trace → List Json
  | [] => []
  | child :: rest => toJson child :: toJsonAll rest

end

mutual

def ofJson? : Json → Option Trace
  | .object members => do
    let field ← (Json.object members).record? ["transaction", "children"]
    let tx ← required Transaction.ofJson? (field "transaction")
    return .node tx (← childrenMember? members)
  | .array items => do
    let field ← (Json.array items).record? ["transaction", "children"]
    let tx ← required Transaction.ofJson? (field "transaction")
    return .node tx (← secondItem? items)
  | _ => none

/-- The children named among the members of an object; none by default. -/
def childrenMember? : List (String × Json) → Option (List Trace)
  | [] => some []
  | (name, value) :: rest => if name = "children" then children? value else childrenMember? rest

def secondItem? : List Json → Option (List Trace)
  | [] => some []
  | _ :: rest => firstItem? rest

def firstItem? : List Json → Option (List Trace)
  | [] => some []
  | value :: _ => children? value

def children? : Json → Option (List Trace)
  | .array items => ofJsonAll? items
  | _ => none

def ofJsonAll? : List Json → Option (List Trace)
  | [] => some []
  | item :: rest => do return (← ofJson? item) :: (← ofJsonAll? rest)

end

end Trace

end TonTrace
