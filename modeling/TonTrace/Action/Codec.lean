import TonTrace.Action.Summary
import TonTrace.Trace.Codec

/-! Actions as JSON: the outcome, the kind and the details in one object. -/

set_option autoImplicit false

namespace TonTrace

open Json

namespace Detail

def Asset.toJson (asset : Asset) : Json :=
  .object [("jetton", ofOption Address.toJson asset.jetton), ("amount", asset.amount.toJson)]

def members : Detail → List (String × Json)
  | .tonTransfer d => [
      ("sender", d.sender.toJson),
      ("recipient", d.recipient.toJson),
      ("amount", ofRanged d.amount),
      ("comment", ofOption .string d.comment),
      ("encrypted_comment", .bool d.encryptedComment),
      ("refund", .bool d.refund)]
  | .jettonTransfer d => [
      ("sender", ofOption Address.toJson d.sender),
      ("recipient", ofOption Address.toJson d.recipient),
      ("senders_wallet", d.sendersWallet.toJson),
      ("recipients_wallet", d.recipientsWallet.toJson),
      ("jetton", ofOption Address.toJson d.jetton),
      ("amount", d.amount.toJson),
      ("comment", ofOption .string d.comment),
      ("encrypted_comment", .bool d.encryptedComment)]
  | .jettonBurn d => [
      ("sender", d.sender.toJson),
      ("senders_wallet", d.sendersWallet.toJson),
      ("jetton", ofOption Address.toJson d.jetton),
      ("amount", d.amount.toJson)]
  | .nftTransfer d => [
      ("sender", ofOption Address.toJson d.sender),
      ("recipient", ofOption Address.toJson d.recipient),
      ("nft", d.nft.toJson),
      ("comment", ofOption .string d.comment),
      ("encrypted_comment", .bool d.encryptedComment)]
  | .nftPurchase d => [
      ("seller", d.seller.toJson),
      ("buyer", d.buyer.toJson),
      ("nft", d.nft.toJson),
      ("sale_contract", d.saleContract.toJson),
      ("marketplace", ofOption Address.toJson d.marketplace),
      ("price", ofRanged d.price)]
  | .swap d => [
      ("dex", .string d.dex.name),
      ("user", d.user.toJson),
      ("router", d.router.toJson),
      ("asset_in", d.assetIn.toJson),
      ("asset_out", d.assetOut.toJson)]
  | .liquidityDeposit d => [
      ("dex", .string d.dex.name),
      ("from", d.provider.toJson),
      ("pool", d.pool.toJson),
      ("tokens", .array (d.tokens.map Asset.toJson))]
  | .deployment d => [
      ("address", d.address.toJson),
      ("interfaces", .array (d.interfaces.map Interface.toJson))]
  | .contractCall d => [
      ("executor", ofOption Address.toJson d.executor),
      ("contract", d.contract.toJson),
      ("ton_attached", ofRanged d.attached),
      ("operation", .string d.operation),
      ("payload", ofOption id d.payload)]
  | .subscription d => [
      ("subscriber", d.subscriber.toJson),
      ("subscription", d.subscription.toJson),
      ("beneficiary", d.beneficiary.toJson),
      ("amount", ofRanged d.amount),
      ("initial", .bool d.initial)]
  | .unsubscription d => [
      ("subscriber", d.subscriber.toJson),
      ("subscription", d.subscription.toJson),
      ("beneficiary", ofOption Address.toJson d.beneficiary)]
  | .stakeDeposit d => [
      ("staker", d.staker.toJson),
      ("pool", d.pool.toJson),
      ("amount", ofRanged d.amount),
      ("implementation", .string d.implementation.name)]
  | .stakeWithdrawal d => [
      ("staker", d.staker.toJson),
      ("pool", d.pool.toJson),
      ("amount", ofRanged d.amount),
      ("implementation", .string d.implementation.name)]
  | .withdrawalRequest d => [
      ("staker", d.staker.toJson),
      ("pool", d.pool.toJson),
      ("amount", ofOption ofRanged d.amount),
      ("implementation", .string d.implementation.name)]
  | .electionDeposit d => [
      ("staker", d.staker.toJson),
      ("elector", d.elector.toJson),
      ("amount", ofRanged d.amount)]
  | .electionRecovery d => [
      ("staker", d.staker.toJson),
      ("elector", d.elector.toJson),
      ("amount", ofRanged d.amount)]
  | .auctionBid d => [
      ("bidder", d.bidder.toJson),
      ("nft", d.nft.toJson),
      ("amount", ofRanged d.amount),
      ("outbid", ofOption Address.toJson d.outbid)]
  | .domainRenewal d => [
      ("renewer", d.renewer.toJson),
      ("item", d.item.toJson)]
  | .gasRelay d => [
      ("relayer", d.relayer.toJson),
      ("target", d.target.toJson),
      ("amount", ofRanged d.amount)]
  | .invoicePayment d => [
      ("sender", d.sender.toJson),
      ("recipient", d.recipient.toJson),
      ("invoice_id", .string d.invoiceId),
      ("jetton", ofOption Address.toJson d.jetton),
      ("amount", d.amount.toJson)]

end Detail

def Action.toJson (action : Action) : Json :=
  .object (("success", .bool action.success) :: ("type", .string action.typeName) ::
    action.detail.members)

end TonTrace
