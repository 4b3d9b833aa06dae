import TonTrace.Action

/-! Events: what a cluster of transactions is read as.

A cluster starts as a raw transaction and stays one until a pattern recognises
it. Every event except a raw external transaction is told as one action.
-/

set_option autoImplicit false

namespace TonTrace

structure Outcome (α : Type) where
  detail : α
  success : Bool := false

namespace Event

structure JettonTransfer where
  sender : Option Address := none
  recipient : Option Address := none
  sendersWallet : Address := default
  recipientsWallet : Address := default
  master : Option Address := none
  amount : JettonAmount := 0
  payload : Option Body := none
  success : Bool := false

structure NftTransfer where
  sender : Option Address := none
  recipient : Option Address := none
  item : Address := default
  payload : Option Body := none
  success : Bool := false

structure Swap extends Outcome Detail.Swap where
  pool : Address := default

structure StakeDeposit extends Outcome Detail.StakeDeposit where
  liquidJetton : Option Address := none
  liquidAmount : JettonAmount := 0
  /-- Where the jetton was minted to; the staker when absent. -/
  liquidOwner : Option Address := none

end Event

inductive Event where
  | transaction (tx : Transaction)
  | tonTransfer (outcome : Outcome Detail.TonTransfer)
  | contractCall (outcome : Outcome Detail.ContractCall)
  | jettonTransfer (transfer : Event.JettonTransfer)
  | jettonBurn (outcome : Outcome Detail.JettonBurn)
  | nftTransfer (transfer : Event.NftTransfer)
  | nftPurchase (outcome : Outcome Detail.NftPurchase)
  | swap (swap : Event.Swap)
  | liquidityDeposit (outcome : Outcome Detail.LiquidityDeposit)
  | stakeDeposit (deposit : Event.StakeDeposit)
  | stakeWithdrawal (outcome : Outcome Detail.StakeWithdrawal)
  | withdrawalRequest (outcome : Outcome Detail.WithdrawalRequest)
  | electionDeposit (outcome : Outcome Detail.ElectionDeposit)
  | electionRecovery (outcome : Outcome Detail.ElectionRecovery)
  | subscription (outcome : Outcome Detail.Subscription)
  | unsubscription (outcome : Outcome Detail.Unsubscription)
  | auctionBid (outcome : Outcome Detail.AuctionBid)
  | domainRenewal (outcome : Outcome Detail.DomainRenewal)
  | gasRelay (outcome : Outcome Detail.GasRelay)
  | invoicePayment (outcome : Outcome Detail.InvoicePayment)

namespace Transaction

/-- The transaction as a plain transfer. A message that cannot bounce delivers
its value even when the account fails to run. -/
def asTransfer (tx : Transaction) : Outcome Detail.TonTransfer where
  success := tx.success || !tx.bounce
  detail := {
    sender := tx.sender?.getD default
    recipient := tx.account
    amount := tx.value
    comment := tx.comment?
    encryptedComment := tx.body?.any (·.isEncryptedComment)
    refund := tx.bounced }

def calledOperation (tx : Transaction) : String :=
  match tx.body?, tx.opCode? with
  | some body, _ => body.operation
  | none, some code => Amount.codeText code
  | none, none => ""

def asCall (tx : Transaction) : Outcome Detail.ContractCall where
  success := tx.success
  detail := {
    executor := tx.sender?
    contract := tx.account
    attached := tx.value
    operation := tx.calledOperation
    payload := tx.body?.map (·.value) }

end Transaction

namespace Event

def JettonTransfer.detail (transfer : JettonTransfer) : Detail.JettonTransfer where
  sender := transfer.sender
  recipient := transfer.recipient
  sendersWallet := transfer.sendersWallet
  recipientsWallet := transfer.recipientsWallet
  jetton := transfer.master
  amount := transfer.amount
  comment := transfer.payload.bind (·.comment?)
  encryptedComment := transfer.payload.any (·.isEncryptedComment)

def NftTransfer.detail (transfer : NftTransfer) : Detail.NftTransfer where
  sender := transfer.sender
  recipient := transfer.recipient
  nft := transfer.item
  comment := transfer.payload.bind (·.comment?)
  encryptedComment := transfer.payload.any (·.isEncryptedComment)

def kind : Event → EventKind
  | .transaction _ => .transaction
  | .tonTransfer _ => .tonTransfer
  | .contractCall _ => .contractCall
  | .jettonTransfer _ => .jettonTransfer
  | .jettonBurn _ => .jettonBurn
  | .nftTransfer _ => .nftTransfer
  | .nftPurchase _ => .nftPurchase
  | .swap _ => .swap
  | .liquidityDeposit _ => .liquidityDeposit
  | .stakeDeposit _ => .stakeDeposit
  | .stakeWithdrawal _ => .stakeWithdrawal
  | .withdrawalRequest _ => .withdrawalRequest
  | .electionDeposit _ => .electionDeposit
  | .electionRecovery _ => .electionRecovery
  | .subscription _ => .subscription
  | .unsubscription _ => .unsubscription
  | .auctionBid _ => .auctionBid
  | .domainRenewal _ => .domainRenewal
  | .gasRelay _ => .gasRelay
  | .invoicePayment _ => .invoicePayment

/-- The action that tells the event. A raw transaction that no pattern
recognised is told as a call or a transfer, unless it came from outside. -/
def action? : Event → Option Action
  | .transaction tx =>
    if tx.external then none
    else if tx.isContractCall then some ⟨tx.asCall.success, .contractCall tx.asCall.detail⟩
    else some ⟨tx.asTransfer.success, .tonTransfer tx.asTransfer.detail⟩
  | .tonTransfer o => some ⟨o.success, .tonTransfer o.detail⟩
  | .contractCall o => some ⟨o.success, .contractCall o.detail⟩
  | .jettonTransfer t => some ⟨t.success, .jettonTransfer t.detail⟩
  | .jettonBurn o => some ⟨o.success, .jettonBurn o.detail⟩
  | .nftTransfer t => some ⟨t.success, .nftTransfer t.detail⟩
  | .nftPurchase o => some ⟨o.success, .nftPurchase o.detail⟩
  | .swap o => some ⟨o.success, .swap o.detail⟩
  | .liquidityDeposit o => some ⟨o.success, .liquidityDeposit o.detail⟩
  | .stakeDeposit o => some ⟨o.success, .stakeDeposit o.detail⟩
  | .stakeWithdrawal o => some ⟨o.success, .stakeWithdrawal o.detail⟩
  | .withdrawalRequest o => some ⟨o.success, .withdrawalRequest o.detail⟩
  | .electionDeposit o => some ⟨o.success, .electionDeposit o.detail⟩
  | .electionRecovery o => some ⟨o.success, .electionRecovery o.detail⟩
  | .subscription o => some ⟨o.success, .subscription o.detail⟩
  | .unsubscription o => some ⟨o.success, .unsubscription o.detail⟩
  | .auctionBid o => some ⟨o.success, .auctionBid o.detail⟩
  | .domainRenewal o => some ⟨o.success, .domainRenewal o.detail⟩
  | .gasRelay o => some ⟨o.success, .gasRelay o.detail⟩
  | .invoicePayment o => some ⟨o.success, .invoicePayment o.detail⟩

end Event

end TonTrace
