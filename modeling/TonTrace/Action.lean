import TonTrace.AddressMap
import TonTrace.Transaction

/-! Actions: what a trace did, in terms of its users.

An action is an outcome with the details of one kind of interaction. Unset
details are zero, empty or absent.
-/

set_option autoImplicit false

namespace TonTrace

namespace Detail

structure TonTransfer where
  sender : Address := default
  recipient : Address := default
  amount : Nanotons := 0
  comment : Option String := none
  encryptedComment : Bool := false
  /-- The message bounced back to its sender. -/
  refund : Bool := false

structure JettonTransfer where
  sender : Option Address := none
  recipient : Option Address := none
  sendersWallet : Address := default
  recipientsWallet : Address := default
  jetton : Option Address := none
  amount : JettonAmount := 0
  comment : Option String := none
  encryptedComment : Bool := false

structure JettonBurn where
  sender : Address := default
  sendersWallet : Address := default
  jetton : Option Address := none
  amount : JettonAmount := 0

structure NftTransfer where
  sender : Option Address := none
  recipient : Option Address := none
  nft : Address := default
  comment : Option String := none
  encryptedComment : Bool := false

structure NftPurchase where
  seller : Address := default
  buyer : Address := default
  nft : Address := default
  saleContract : Address := default
  marketplace : Option Address := none
  price : Nanotons := 0

inductive Dex where
  | stonfi
  | dedust
  deriving DecidableEq, Inhabited

/-- One side of a swap: TON without a jetton. -/
structure Asset where
  jetton : Option Address := none
  amount : JettonAmount := 0
  deriving DecidableEq

structure Swap where
  dex : Dex := .stonfi
  user : Address := default
  router : Address := default
  assetIn : Asset := {}
  assetOut : Asset := {}

structure LiquidityDeposit where
  dex : Dex := .stonfi
  provider : Address := default
  pool : Address := default
  tokens : List Asset := []

structure Deployment where
  address : Address := default
  interfaces : List Interface := []

structure ContractCall where
  executor : Option Address := none
  contract : Address := default
  attached : Nanotons := 0
  operation : String := ""
  payload : Option Json := none

structure Subscription where
  subscriber : Address := default
  subscription : Address := default
  beneficiary : Address := default
  amount : Nanotons := 0
  /-- The first charge, made when the plugin was deployed. -/
  initial : Bool := false

structure Unsubscription where
  subscriber : Address := default
  subscription : Address := default
  beneficiary : Option Address := none

inductive StakingPool where
  | whales
  | tf
  | liquidTf
  deriving DecidableEq, Inhabited

structure StakeDeposit where
  staker : Address := default
  pool : Address := default
  amount : Nanotons := 0
  implementation : StakingPool := .whales

structure StakeWithdrawal where
  staker : Address := default
  pool : Address := default
  amount : Nanotons := 0
  implementation : StakingPool := .whales

structure WithdrawalRequest where
  staker : Address := default
  pool : Address := default
  /-- Absent when the whole stake is asked for. -/
  amount : Option Nanotons := none
  implementation : StakingPool := .whales

structure ElectionDeposit where
  staker : Address := default
  elector : Address := default
  amount : Nanotons := 0

structure ElectionRecovery where
  staker : Address := default
  elector : Address := default
  amount : Nanotons := 0

structure AuctionBid where
  bidder : Address := default
  nft : Address := default
  amount : Nanotons := 0
  /-- Where the bid before this one was returned to. -/
  outbid : Option Address := none

structure DomainRenewal where
  renewer : Address := default
  item : Address := default

structure GasRelay where
  relayer : Address := default
  target : Address := default
  amount : Nanotons := 0

structure InvoicePayment where
  sender : Address := default
  recipient : Address := default
  invoiceId : String := ""
  /-- Absent when the invoice was paid in TON. -/
  jetton : Option Address := none
  amount : JettonAmount := 0

end Detail

inductive Detail where
  | tonTransfer (detail : Detail.TonTransfer)
  | jettonTransfer (detail : Detail.JettonTransfer)
  | jettonBurn (detail : Detail.JettonBurn)
  | nftTransfer (detail : Detail.NftTransfer)
  | nftPurchase (detail : Detail.NftPurchase)
  | swap (detail : Detail.Swap)
  | liquidityDeposit (detail : Detail.LiquidityDeposit)
  | deployment (detail : Detail.Deployment)
  | contractCall (detail : Detail.ContractCall)
  | subscription (detail : Detail.Subscription)
  | unsubscription (detail : Detail.Unsubscription)
  | stakeDeposit (detail : Detail.StakeDeposit)
  | stakeWithdrawal (detail : Detail.StakeWithdrawal)
  | withdrawalRequest (detail : Detail.WithdrawalRequest)
  | electionDeposit (detail : Detail.ElectionDeposit)
  | electionRecovery (detail : Detail.ElectionRecovery)
  | auctionBid (detail : Detail.AuctionBid)
  | domainRenewal (detail : Detail.DomainRenewal)
  | gasRelay (detail : Detail.GasRelay)
  | invoicePayment (detail : Detail.InvoicePayment)

structure Action where
  success : Bool
  detail : Detail

namespace Action

def typeName (action : Action) : String :=
  match action.detail with
  | .tonTransfer _ => "TonTransfer"
  | .jettonTransfer _ => "JettonTransfer"
  | .jettonBurn _ => "JettonBurn"
  | .nftTransfer _ => "NftItemTransfer"
  | .nftPurchase _ => "NftPurchase"
  | .swap _ => "JettonSwap"
  | .liquidityDeposit _ => "LiquidityDeposit"
  | .deployment _ => "ContractDeploy"
  | .contractCall _ => "SmartContractExec"
  | .subscription _ => "Subscribe"
  | .unsubscription _ => "UnSubscribe"
  | .stakeDeposit _ => "DepositStake"
  | .stakeWithdrawal _ => "WithdrawStake"
  | .withdrawalRequest _ => "WithdrawStakeRequest"
  | .electionDeposit _ => "ElectionsDepositStake"
  | .electionRecovery _ => "ElectionsRecoverStake"
  | .auctionBid _ => "AuctionBid"
  | .domainRenewal _ => "DnsRenew"
  | .gasRelay _ => "GasRelay"
  | .invoicePayment _ => "InvoicePayment"

def parties (action : Action) : List Address :=
  match action.detail with
  | .tonTransfer d => [d.sender, d.recipient]
  | .jettonTransfer d =>
    d.sender.toList ++ d.recipient.toList ++ [d.sendersWallet, d.recipientsWallet]
  | .jettonBurn d => [d.sender, d.sendersWallet]
  | .nftTransfer d => d.sender.toList ++ d.recipient.toList ++ [d.nft]
  | .nftPurchase d => [d.seller, d.buyer, d.nft]
  | .swap d => [d.user, d.router]
  | .liquidityDeposit d => [d.provider, d.pool]
  | .deployment d => [d.address]
  | .contractCall d => d.executor.toList ++ [d.contract]
  | .subscription d => [d.subscriber, d.subscription, d.beneficiary]
  | .unsubscription d => [d.subscriber, d.subscription] ++ d.beneficiary.toList
  | .stakeDeposit d => [d.staker, d.pool]
  | .stakeWithdrawal d => [d.staker, d.pool]
  | .withdrawalRequest d => [d.staker, d.pool]
  | .electionDeposit d => [d.staker, d.elector]
  | .electionRecovery d => [d.staker, d.elector]
  | .auctionBid d => [d.bidder, d.nft] ++ d.outbid.toList
  | .domainRenewal d => [d.renewer, d.item]
  | .gasRelay d => [d.relayer, d.target]
  | .invoicePayment d => [d.sender, d.recipient]

/-- The parties in address order, each once. -/
def subjects (action : Action) : AddressSet := .ofList action.parties

def isSubject (action : Action) (account : Address) : Bool := action.subjects.contains account

end Action

end TonTrace
