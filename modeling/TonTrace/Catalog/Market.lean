import TonTrace.Catalog.Transfer

/-! Auctions, sales and exchanges.

Swaps are read from the payout upwards: the payout sets the outcome, and each
step above it can only turn success into failure.
-/

set_option autoImplicit false

namespace TonTrace.Catalog

open Check

/-- A bid on a Fragment item is a plain payment to it. -/
def fragmentBid : Rule where
  Output := Outcome Detail.AuctionBid
  initial := { detail := {} }
  event := .auctionBid
  pattern := {
    name := "fragment_bid"
    checks := [hasInterface .teleitem, isInternal, amountAtLeast ⟨1, by decide, by decide⟩,
      isPlain]
    build := fun bid reading => do
      let tx ← reading.transaction
      return { bid with
        detail.bidder := tx.sender?.getD default
        detail.nft := tx.account
        detail.amount := tx.value
        success := tx.success }
    parts := [{
      name := "fragment_outbid_refund"
      checks := [hasOperation Operation.teleitemOutbidNotification]
      build := fun bid reading => do
        let tx ← reading.transaction
        return { bid with detail.outbid := some tx.account }
      optional := true }] }

def handsOver (sale : Address) (child : Reading) : Bool :=
  match child.event with
  | .nftTransfer transfer => transfer.sender = some sale
  | _ => false

/-- The payment to a sale contract, which has to hand an item over itself. -/
def takePurchase (purchase : Outcome Detail.NftPurchase) (reading : Reading) :
    Except Error (Outcome Detail.NftPurchase) := do
  let tx ← reading.transaction
  match tx.sale? with
  | none => .error (.noSaleData tx.account)
  | some sale =>
    if reading.children.any (handsOver tx.account) then
      return { purchase with
        detail.saleContract := tx.account
        detail.seller := sale.owner.getD default
        detail.marketplace := some sale.marketplace
        detail.price := sale.price
        detail.buyer :=
          if purchase.detail.buyer.isZero then tx.sender?.getD default else purchase.detail.buyer }
    else .error (.itemNotHandedOver tx.account)

def takePurchasedItem (purchase : Outcome Detail.NftPurchase) (reading : Reading) :
    Except Error (Outcome Detail.NftPurchase) := do
  let transfer ← reading.nftTransfer
  return { purchase with
    detail.nft := transfer.item
    success := transfer.success
    detail.buyer := transfer.recipient.getD purchase.detail.buyer }

def nftPurchase : Rule where
  Output := Outcome Detail.NftPurchase
  initial := { detail := {} }
  event := .nftPurchase
  pattern := {
    name := "nft_purchase"
    checks := [hasInterface .nftSale, isInternal]
    build := takePurchase
    parts := [{
      name := "nft_purchase_transfer"
      checks := [isNftTransfer]
      build := takePurchasedItem }] }

def tonAsset (value : Nanotons) : Detail.Asset := { amount := value.toAmount }

def takePayout (swap : Event.Swap) (reading : Reading) : Except Error Event.Swap :=
  match reading.event with
  | .jettonTransfer transfer =>
    .ok { swap with
      detail.assetOut := { jetton := transfer.master, amount := transfer.amount }
      success := transfer.success }
  | .transaction tx =>
    .ok { swap with
      detail.assetOut := tonAsset tx.value
      success := tx.success }
  | other => .error (.unexpectedPayout other.kind)

def takeStonfiOrder (swap : Event.Swap) (reading : Reading) : Except Error Event.Swap := do
  let transfer ← reading.jettonTransfer
  match transfer.payload with
  | none => .error .noSwapPayload
  | some body =>
    let order : Payload.StonfiSwap ← body.decode
    return { swap with
      detail.dex := .stonfi
      detail.user := transfer.sender.getD order.toAddress
      detail.router := transfer.recipient.getD default
      detail.assetIn := { jetton := transfer.master, amount := transfer.amount }
      success := swap.success && transfer.success }

/-- The pool reports the swap to the router. Unless it completed, the payout is
a refund of the input and no output. -/
def takeStonfiResult (swap : Event.Swap) (reading : Reading) : Except Error Event.Swap := do
  let tx ← reading.transaction
  let result : Payload.StonfiPaymentRequest ← tx.decodeBody Operation.stonfiPaymentRequest
  let output := swap.detail.assetOut
  return { swap with
    success := swap.success && result.completed && tx.success
    detail.assetOut :=
      if !result.completed then {}
      else if output.amount = 0 then
        { output with amount := result.amount0Out.max result.amount1Out }
      else output }

def stonfiSwap : Rule where
  Output := Event.Swap
  initial := { detail := {} }
  event := .swap
  pattern := {
    name := "stonfi_swap"
    checks := [forwardsPayload Operation.stonfiSwap]
    build := takeStonfiOrder
    parts := [{
      name := "stonfi_swap_pool"
      checks := [hasOperation Operation.stonfiSwap]
      build := fun swap reading => do
        let tx ← reading.transaction
        return { swap with pool := tx.account }
      parts := [{
        name := "stonfi_payment_request"
        checks := [hasOperation Operation.stonfiPaymentRequest]
        build := takeStonfiResult
        parts := [{
          name := "stonfi_payout"
          checks := [either isJettonTransfer isInternal]
          build := takePayout }] }] }] }

def asksNativeVault (reading : Reading) : Bool :=
  hasInterface .dedustVault reading && hasOperation Operation.dedustSwap reading

/-- What the user put in. The value sent to the native vault includes gas, so
the amount that reached the pool goes first and then the amount asked for. -/
def takeDedustOrder (swap : Event.Swap) (reading : Reading) : Except Error Event.Swap :=
  match reading.event with
  | .transaction tx => do
    let order : Payload.DedustSwap ← tx.decodeBody Operation.dedustSwap
    let arrived := swap.detail.assetIn.amount
    return { swap with
      detail.dex := .dedust
      detail.user := tx.sender?.getD default
      detail.router := tx.account
      detail.assetIn :=
        if arrived ≠ 0 then { amount := arrived }
        else if order.amount ≠ 0 then { amount := order.amount }
        else tonAsset tx.value }
  | .jettonTransfer transfer =>
    .ok { swap with
      detail.dex := .dedust
      detail.user := transfer.sender.getD default
      detail.router := transfer.recipient.getD default
      detail.assetIn := { jetton := transfer.master, amount := transfer.amount }
      success := swap.success && transfer.success }
  | other => .error (.unexpectedSwapInput other.kind)

def takeDedustPool (swap : Event.Swap) (reading : Reading) : Except Error Event.Swap := do
  let tx ← reading.transaction
  let body : Payload.DedustSwapExternal ← tx.decodeBody Operation.dedustSwapExternal
  return { swap with
    pool := tx.account
    detail.assetIn.amount := body.amount
    success := swap.success && tx.success }

def takeDedustPayoutOrder (swap : Event.Swap) (reading : Reading) : Except Error Event.Swap := do
  let tx ← reading.transaction
  let body : Payload.DedustPayoutFromPool ← tx.decodeBody Operation.dedustPayoutFromPool
  return { swap with
    detail.assetOut.amount :=
      if swap.detail.assetOut.amount = 0 then body.amount else swap.detail.assetOut.amount }

def dedustSwap : Rule where
  Output := Event.Swap
  initial := { detail := {} }
  event := .swap
  pattern := {
    name := "dedust_swap"
    checks := [either asksNativeVault (forwardsPayload Operation.dedustSwap)]
    build := takeDedustOrder
    parts := [{
      name := "dedust_pool"
      checks := [hasOperation Operation.dedustSwapExternal]
      build := takeDedustPool
      parts := [{
        name := "dedust_vault_payout"
        checks := [hasOperation Operation.dedustPayoutFromPool]
        build := takeDedustPayoutOrder
        parts := [{
          name := "dedust_payout"
          checks := [either isJettonTransfer (hasOperation Operation.dedustPayout)]
          build := takePayout }] }] }] }

def stonfiLiquidityDeposit : Rule where
  Output := Outcome Detail.LiquidityDeposit
  initial := { detail := {} }
  event := .liquidityDeposit
  pattern := {
    name := "stonfi_liquidity_deposit"
    checks := [forwardsPayload Operation.stonfiProvideLp]
    build := fun deposit reading => do
      let transfer ← reading.jettonTransfer
      return { deposit with
        detail.dex := .stonfi
        detail.provider := transfer.sender.getD default
        detail.tokens :=
          deposit.detail.tokens ++ [{ jetton := transfer.master, amount := transfer.amount }]
        success := deposit.success && transfer.success }
    parts := [{
      name := "stonfi_provide_liquidity"
      checks := [hasOperation Operation.stonfiProvideLiquidity]
      build := fun deposit reading => do
        let tx ← reading.transaction
        return { deposit with detail.pool := tx.account, success := tx.success }
      parts := [{
        name := "stonfi_add_liquidity"
        checks := [hasOperation Operation.stonfiAddLiquidity]
        optional := true }] }] }

end TonTrace.Catalog
