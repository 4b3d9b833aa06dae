import TonTrace.Action

/-! Partial templates of actions.

In a template an unset field stands for any value: a zero account, a zero
number, `false`, an empty text or an absent value. `Action.fits` compares an
action with a template of the same kind, field by field.
-/

set_option autoImplicit false

namespace TonTrace

/-- A field type whose unset value is a wildcard: `allows template actual`. -/
class Wildcard (α : Type) where
  allows : α → α → Bool

export Wildcard (allows)

instance : Wildcard Address where
  allows template actual := template.isZero || template = actual

instance {lo hi : Int} : Wildcard (Ranged lo hi) where
  allows template actual := template.val = 0 || template = actual

instance : Wildcard Bool where
  allows template actual := !template || actual

instance : Wildcard String where
  allows template actual := template.isEmpty || template = actual

instance {α : Type} [DecidableEq α] : Wildcard (Option α) where
  allows template actual := template.isNone || template = actual

instance : Wildcard (List Interface) where
  allows template actual := template.all fun interface => interface ∈ actual

instance : Wildcard Detail.Asset where
  allows template actual :=
    allows template.jetton actual.jetton && allows template.amount actual.amount

instance : Wildcard (List Detail.Asset) where
  allows template actual := template.all fun t => actual.any (allows t)

def Detail.fits : Detail → Detail → Bool
  | .tonTransfer t, .tonTransfer a =>
    allows t.sender a.sender && allows t.recipient a.recipient && allows t.amount a.amount &&
      allows t.comment a.comment && allows t.encryptedComment a.encryptedComment &&
      allows t.refund a.refund
  | .jettonTransfer t, .jettonTransfer a =>
    allows t.sender a.sender && allows t.recipient a.recipient &&
      allows t.sendersWallet a.sendersWallet && allows t.recipientsWallet a.recipientsWallet &&
      allows t.jetton a.jetton && allows t.amount a.amount && allows t.comment a.comment
  | .jettonBurn t, .jettonBurn a =>
    allows t.sender a.sender && allows t.sendersWallet a.sendersWallet &&
      allows t.jetton a.jetton && allows t.amount a.amount
  | .nftTransfer t, .nftTransfer a =>
    allows t.sender a.sender && allows t.recipient a.recipient && allows t.nft a.nft &&
      allows t.comment a.comment
  | .nftPurchase t, .nftPurchase a =>
    allows t.seller a.seller && allows t.buyer a.buyer && allows t.nft a.nft &&
      allows t.saleContract a.saleContract && allows t.marketplace a.marketplace &&
      allows t.price a.price
  | .swap t, .swap a =>
    t.dex = a.dex && allows t.user a.user && allows t.router a.router &&
      allows t.assetIn a.assetIn && allows t.assetOut a.assetOut
  | .liquidityDeposit t, .liquidityDeposit a =>
    t.dex = a.dex && allows t.provider a.provider && allows t.pool a.pool &&
      allows t.tokens a.tokens
  | .deployment t, .deployment a =>
    allows t.address a.address && allows t.interfaces a.interfaces
  | .contractCall t, .contractCall a =>
    allows t.executor a.executor && allows t.contract a.contract &&
      allows t.attached a.attached && allows t.operation a.operation
  | .subscription t, .subscription a =>
    allows t.subscriber a.subscriber && allows t.subscription a.subscription &&
      allows t.beneficiary a.beneficiary && allows t.amount a.amount && allows t.initial a.initial
  | .unsubscription t, .unsubscription a =>
    allows t.subscriber a.subscriber && allows t.subscription a.subscription &&
      allows t.beneficiary a.beneficiary
  | .stakeDeposit t, .stakeDeposit a =>
    allows t.staker a.staker && allows t.pool a.pool && allows t.amount a.amount &&
      t.implementation = a.implementation
  | .stakeWithdrawal t, .stakeWithdrawal a =>
    allows t.staker a.staker && allows t.pool a.pool && allows t.amount a.amount &&
      t.implementation = a.implementation
  | .withdrawalRequest t, .withdrawalRequest a =>
    allows t.staker a.staker && allows t.pool a.pool && allows t.amount a.amount &&
      t.implementation = a.implementation
  | .electionDeposit t, .electionDeposit a =>
    allows t.staker a.staker && allows t.elector a.elector && allows t.amount a.amount
  | .electionRecovery t, .electionRecovery a =>
    allows t.staker a.staker && allows t.elector a.elector && allows t.amount a.amount
  | .auctionBid t, .auctionBid a =>
    allows t.bidder a.bidder && allows t.nft a.nft && allows t.amount a.amount &&
      allows t.outbid a.outbid
  | .domainRenewal t, .domainRenewal a =>
    allows t.renewer a.renewer && allows t.item a.item
  | .gasRelay t, .gasRelay a =>
    allows t.relayer a.relayer && allows t.target a.target && allows t.amount a.amount
  | .invoicePayment t, .invoicePayment a =>
    allows t.sender a.sender && allows t.recipient a.recipient &&
      allows t.invoiceId a.invoiceId && allows t.jetton a.jetton && allows t.amount a.amount
  | _, _ => false

/-- Whether the action agrees with a template. A template of a failed action takes any outcome. -/
def Action.fits (template action : Action) : Bool :=
  allows template.success action.success && template.detail.fits action.detail

end TonTrace
