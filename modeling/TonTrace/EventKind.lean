/-! The names of what a cluster of transactions can be read as. -/

set_option autoImplicit false

namespace TonTrace

inductive EventKind where
  | transaction
  | tonTransfer
  | contractCall
  | jettonTransfer
  | jettonBurn
  | nftTransfer
  | nftPurchase
  | swap
  | liquidityDeposit
  | stakeDeposit
  | stakeWithdrawal
  | withdrawalRequest
  | electionDeposit
  | electionRecovery
  | subscription
  | unsubscription
  | auctionBid
  | domainRenewal
  | gasRelay
  | invoicePayment
  deriving DecidableEq

def EventKind.name : EventKind → String
  | .transaction => "Tx"
  | .tonTransfer => "TonTransfer"
  | .contractCall => "ContractCall"
  | .jettonTransfer => "JettonTransfer"
  | .jettonBurn => "JettonBurn"
  | .nftTransfer => "NftTransfer"
  | .nftPurchase => "NftPurchase"
  | .swap => "JettonSwap"
  | .liquidityDeposit => "LiquidityDeposit"
  | .stakeDeposit => "DepositStake"
  | .stakeWithdrawal => "WithdrawStake"
  | .withdrawalRequest => "WithdrawStakeRequest"
  | .electionDeposit => "ElectionsDepositStake"
  | .electionRecovery => "ElectionsRecoverStake"
  | .subscription => "Subscription"
  | .unsubscription => "UnSubscription"
  | .auctionBid => "AuctionBid"
  | .domainRenewal => "DnsRenew"
  | .gasRelay => "GasRelay"
  | .invoicePayment => "InvoicePayment"

end TonTrace
