/-! The names of message operations, as a decoded body carries them. -/

set_option autoImplicit false

namespace TonTrace.Operation

def textComment := "TextComment"
def encryptedTextComment := "EncryptedTextComment"
def excess := "Excess"

def jettonTransfer := "JettonTransfer"
def jettonInternalTransfer := "JettonInternalTransfer"
def jettonNotify := "JettonNotify"
def jettonBurn := "JettonBurn"
def jettonBurnNotification := "JettonBurnNotification"
def jettonMint := "JettonMint"

def nftTransfer := "NftTransfer"
def nftOwnershipAssigned := "NftOwnershipAssigned"
def teleitemOutbidNotification := "TeleitemOutbidNotification"
def changeDnsRecord := "ChangeDnsRecord"

def stonfiSwap := "StonfiSwap"
def stonfiPaymentRequest := "StonfiPaymentRequest"
def stonfiProvideLp := "StonfiProvideLp"
def stonfiProvideLiquidity := "StonfiProvideLiquidity"
def stonfiAddLiquidity := "StonfiAddLiquidity"
def dedustSwap := "DedustSwap"
def dedustSwapExternal := "DedustSwapExternal"
def dedustPayoutFromPool := "DedustPayoutFromPool"
def dedustPayout := "DedustPayout"

def tonstakersPoolDeposit := "TonstakersPoolDeposit"
def whalesNominatorsDeposit := "WhalesNominatorsDeposit"
def whalesNominatorsWithdraw := "WhalesNominatorsWithdraw"
def whalesNominatorsWithdrawResponse := "WhalesNominatorsWithdrawUnownedResponse"
def electorNewStake := "ElectorNewStake"
def electorNewStakeConfirmation := "ElectorNewStakeConfirmation"
def electorRecoverStakeRequest := "ElectorRecoverStakeRequest"
def electorRecoverStakeResponse := "ElectorRecoverStakeResponse"

def paymentRequest := "PaymentRequest"
def paymentRequestResponse := "PaymentRequestResponse"
def subscriptionPayment := "SubscriptionPayment"
def walletPluginDestruct := "WalletPluginDestruct"
def walletPluginDestructResponse := "WalletPluginDestructResponse"

def walletSignedInternal := "WalletSignedInternalV5R1"
def invoicePayload := "InvoicePayload"

end TonTrace.Operation
