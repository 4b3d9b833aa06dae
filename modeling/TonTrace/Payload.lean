import TonTrace.Body

/-! The payloads of the operations that patterns look into. -/

set_option autoImplicit false

namespace TonTrace.Payload

open Json

structure JettonTransfer where
  queryId : Word64
  amount : JettonAmount
  destination : Address
  responseDestination : Option Address
  forwardTonAmount : Nanotons
  forwardPayload : Option Body

instance : Payload JettonTransfer where
  ofJson? json := do
    let field ← json.record? ["query_id", "amount", "destination", "response_destination",
      "forward_ton_amount", "forward_payload"]
    return {
      queryId := ← defaulted 0 ranged? (field "query_id")
      amount := ← required JettonAmount.ofJson? (field "amount")
      destination := ← required Address.ofJson? (field "destination")
      responseDestination := ← optional Address.ofJson? (field "response_destination")
      forwardTonAmount := ← defaulted 0 ranged? (field "forward_ton_amount")
      forwardPayload := ← optional Body.ofJson? (field "forward_payload") }

structure JettonInternalTransfer where
  queryId : Word64
  amount : JettonAmount
  sender : Option Address
  responseAddress : Option Address
  forwardTonAmount : Nanotons
  forwardPayload : Option Body

instance : Payload JettonInternalTransfer where
  ofJson? json := do
    let field ← json.record? ["query_id", "amount", "from", "response_address",
      "forward_ton_amount", "forward_payload"]
    return {
      queryId := ← defaulted 0 ranged? (field "query_id")
      amount := ← required JettonAmount.ofJson? (field "amount")
      sender := ← optional Address.ofJson? (field "from")
      responseAddress := ← optional Address.ofJson? (field "response_address")
      forwardTonAmount := ← defaulted 0 ranged? (field "forward_ton_amount")
      forwardPayload := ← optional Body.ofJson? (field "forward_payload") }

structure JettonNotify where
  queryId : Word64
  amount : JettonAmount
  sender : Address
  forwardPayload : Option Body

instance : Payload JettonNotify where
  ofJson? json := do
    let field ← json.record? ["query_id", "amount", "sender", "forward_payload"]
    return {
      queryId := ← defaulted 0 ranged? (field "query_id")
      amount := ← required JettonAmount.ofJson? (field "amount")
      sender := ← required Address.ofJson? (field "sender")
      forwardPayload := ← optional Body.ofJson? (field "forward_payload") }

structure JettonBurn where
  queryId : Word64
  amount : JettonAmount
  responseDestination : Option Address

instance : Payload JettonBurn where
  ofJson? json := do
    let field ← json.record? ["query_id", "amount", "response_destination"]
    return {
      queryId := ← defaulted 0 ranged? (field "query_id")
      amount := ← required JettonAmount.ofJson? (field "amount")
      responseDestination := ← optional Address.ofJson? (field "response_destination") }

structure JettonMint where
  queryId : Word64
  toAddress : Address
  amount : JettonAmount

instance : Payload JettonMint where
  ofJson? json := do
    let field ← json.record? ["query_id", "to_address", "amount"]
    return {
      queryId := ← defaulted 0 ranged? (field "query_id")
      toAddress := ← required Address.ofJson? (field "to_address")
      amount := ← required JettonAmount.ofJson? (field "amount") }

structure NftTransfer where
  queryId : Word64
  newOwner : Address
  responseDestination : Option Address
  forwardAmount : Nanotons
  forwardPayload : Option Body

instance : Payload NftTransfer where
  ofJson? json := do
    let field ← json.record? ["query_id", "new_owner", "response_destination", "forward_amount",
      "forward_payload"]
    return {
      queryId := ← defaulted 0 ranged? (field "query_id")
      newOwner := ← required Address.ofJson? (field "new_owner")
      responseDestination := ← optional Address.ofJson? (field "response_destination")
      forwardAmount := ← defaulted 0 ranged? (field "forward_amount")
      forwardPayload := ← optional Body.ofJson? (field "forward_payload") }

structure NftOwnershipAssigned where
  queryId : Word64
  previousOwner : Address
  forwardPayload : Option Body

instance : Payload NftOwnershipAssigned where
  ofJson? json := do
    let field ← json.record? ["query_id", "prev_owner", "forward_payload"]
    return {
      queryId := ← defaulted 0 ranged? (field "query_id")
      previousOwner := ← required Address.ofJson? (field "prev_owner")
      forwardPayload := ← optional Body.ofJson? (field "forward_payload") }

structure StonfiSwap where
  tokenWallet : Address
  minOut : JettonAmount
  toAddress : Address
  referralAddress : Option Address

instance : Payload StonfiSwap where
  ofJson? json := do
    let field ← json.record? ["token_wallet", "min_out", "to_address", "referral_address"]
    return {
      tokenWallet := ← required Address.ofJson? (field "token_wallet")
      minOut := ← required JettonAmount.ofJson? (field "min_out")
      toAddress := ← required Address.ofJson? (field "to_address")
      referralAddress := ← optional Address.ofJson? (field "referral_address") }

structure StonfiPaymentRequest where
  queryId : Word64
  owner : Address
  exitCode : Word32
  amount0Out : JettonAmount
  token0Address : Address
  amount1Out : JettonAmount
  token1Address : Address

instance : Payload StonfiPaymentRequest where
  ofJson? json := do
    let field ← json.record? ["query_id", "owner", "exit_code", "amount0_out", "token0_address",
      "amount1_out", "token1_address"]
    return {
      queryId := ← defaulted 0 ranged? (field "query_id")
      owner := ← required Address.ofJson? (field "owner")
      exitCode := ← required ranged? (field "exit_code")
      amount0Out := ← required JettonAmount.ofJson? (field "amount0_out")
      token0Address := ← required Address.ofJson? (field "token0_address")
      amount1Out := ← required JettonAmount.ofJson? (field "amount1_out")
      token1Address := ← required Address.ofJson? (field "token1_address") }

/-- The exit code with which STON.fi reports a completed swap. -/
def StonfiPaymentRequest.completed (request : StonfiPaymentRequest) : Bool :=
  request.exitCode.val = 0xc64370e5

structure DedustSwap where
  queryId : Word64
  amount : JettonAmount
  pool : Address
  limit : JettonAmount
  recipient : Option Address

instance : Payload DedustSwap where
  ofJson? json := do
    let field ← json.record? ["query_id", "amount", "pool", "limit", "recipient"]
    return {
      queryId := ← defaulted 0 ranged? (field "query_id")
      amount := ← defaulted 0 JettonAmount.ofJson? (field "amount")
      pool := ← required Address.ofJson? (field "pool")
      limit := ← defaulted 0 JettonAmount.ofJson? (field "limit")
      recipient := ← optional Address.ofJson? (field "recipient") }

structure DedustSwapExternal where
  queryId : Word64
  amount : JettonAmount
  sender : Address

instance : Payload DedustSwapExternal where
  ofJson? json := do
    let field ← json.record? ["query_id", "amount", "sender"]
    return {
      queryId := ← defaulted 0 ranged? (field "query_id")
      amount := ← required JettonAmount.ofJson? (field "amount")
      sender := ← required Address.ofJson? (field "sender") }

structure DedustPayoutFromPool where
  queryId : Word64
  amount : JettonAmount
  recipient : Address

instance : Payload DedustPayoutFromPool where
  ofJson? json := do
    let field ← json.record? ["query_id", "amount", "recipient"]
    return {
      queryId := ← defaulted 0 ranged? (field "query_id")
      amount := ← required JettonAmount.ofJson? (field "amount")
      recipient := ← required Address.ofJson? (field "recipient") }

/-- A stake of zero asks for the whole stake. -/
structure WhalesWithdraw where
  queryId : Word64
  stake : Nanotons

instance : Payload WhalesWithdraw where
  ofJson? json := do
    let field ← json.record? ["query_id", "stake"]
    return {
      queryId := ← defaulted 0 ranged? (field "query_id")
      stake := ← defaulted 0 ranged? (field "stake") }

structure ChangeDnsRecord where
  queryId : Word64
  key : String
  value : Option Json

instance : Payload ChangeDnsRecord where
  ofJson? json := do
    let field ← json.record? ["query_id", "key", "value"]
    return {
      queryId := ← defaulted 0 ranged? (field "query_id")
      key := ← required string? (field "key")
      value := ← optional some (field "value") }

/-- A zero key without a value renews the domain. -/
def ChangeDnsRecord.isRenewal (record : ChangeDnsRecord) : Bool :=
  record.value.isNone && (Hex.dropMarkers record.key.toList).all (· == '0')

structure Invoice where
  id : String

instance : Payload Invoice where
  ofJson? json := do
    let field ← json.record? ["id"]
    return { id := ← required string? (field "id") }

end TonTrace.Payload
