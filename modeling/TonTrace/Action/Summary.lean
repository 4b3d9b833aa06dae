import TonTrace.Action

/-! One line of text for each action. -/

set_option autoImplicit false

namespace TonTrace

open Amount

namespace Detail

def partyText (account : Option Address) : String :=
  match account with
  | some account => account.text
  | none => "?"

def Asset.name (asset : Asset) : String :=
  match asset.jetton with
  | some jetton => jetton.text
  | none => "TON"

def Asset.text (asset : Asset) : String := Decimal.text asset.amount.val ++ " " ++ asset.name

def Dex.name : Dex → String
  | .stonfi => "Stonfi"
  | .dedust => "Dedust"

def StakingPool.name : StakingPool → String
  | .whales => "Whales"
  | .tf => "TF"
  | .liquidTf => "LiquidTF"

def WithdrawalRequest.amountText (request : WithdrawalRequest) : String :=
  match request.amount with
  | some amount => tonText amount ++ " TON"
  | none => "todo o stake"

def summary : Detail → String
  | .tonTransfer d => "Transferência de " ++ tonText d.amount ++ " TON de " ++ d.sender.text ++
    " para " ++ d.recipient.text
  | .jettonTransfer d => "Transferência de " ++ Decimal.text d.amount.val ++ " jettons " ++
    partyText d.jetton ++ " de " ++ partyText d.sender ++ " para " ++ partyText d.recipient
  | .jettonBurn d => "Queima de " ++ Decimal.text d.amount.val ++ " jettons " ++
    partyText d.jetton ++ " por " ++ d.sender.text
  | .nftTransfer d => "Transferência do NFT " ++ d.nft.text ++ " de " ++ partyText d.sender ++
    " para " ++ partyText d.recipient
  | .nftPurchase d => "Compra do NFT " ++ d.nft.text ++ " por " ++ tonText d.price ++ " TON (" ++
    d.seller.text ++ " -> " ++ d.buyer.text ++ ")"
  | .swap d => "Swap " ++ d.dex.name ++ ": " ++ d.assetIn.text ++ " por " ++ d.assetOut.text
  | .liquidityDeposit d => "Depósito de liquidez " ++ d.dex.name ++ " no pool " ++ d.pool.text ++
    " por " ++ d.provider.text
  | .deployment d => "Implantação do contrato " ++ d.address.text
  | .contractCall d => "Execução de " ++ d.operation ++ " em " ++ d.contract.text ++ " com " ++
    tonText d.attached ++ " TON"
  | .subscription d => "Assinatura " ++ d.subscription.text ++ " de " ++ d.subscriber.text ++
    " para " ++ d.beneficiary.text ++ ": " ++ tonText d.amount ++ " TON"
  | .unsubscription d => "Cancelamento da assinatura " ++ d.subscription.text ++ " por " ++
    d.subscriber.text
  | .stakeDeposit d => "Depósito de " ++ tonText d.amount ++ " TON em stake " ++
    d.implementation.name ++ " no pool " ++ d.pool.text
  | .stakeWithdrawal d => "Retirada de " ++ tonText d.amount ++ " TON do pool " ++
    d.implementation.name ++ " " ++ d.pool.text
  | .withdrawalRequest d => "Pedido de retirada de " ++ d.amountText ++ " do pool " ++
    d.implementation.name ++ " " ++ d.pool.text
  | .electionDeposit d => "Depósito de " ++ tonText d.amount ++ " TON nas eleições por " ++
    d.staker.text
  | .electionRecovery d => "Recuperação de " ++ tonText d.amount ++ " TON das eleições por " ++
    d.staker.text
  | .auctionBid d => "Lance de " ++ tonText d.amount ++ " TON no item " ++ d.nft.text ++ " por " ++
    d.bidder.text
  | .domainRenewal d => "Renovação do domínio " ++ d.item.text ++ " por " ++ d.renewer.text
  | .gasRelay d => "Relay de gás por " ++ d.relayer.text ++ " para " ++ d.target.text ++ " (" ++
    tonText d.amount ++ " TON)"
  | .invoicePayment d => "Pagamento da fatura " ++ d.invoiceId ++ " de " ++ d.sender.text ++
    " para " ++ d.recipient.text ++ ": " ++ Decimal.text d.amount.val ++ " " ++ partyText d.jetton

end Detail

def Action.summary (action : Action) : String :=
  if action.success then action.detail.summary else action.detail.summary ++ " [falhou]"

end TonTrace
