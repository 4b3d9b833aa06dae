import TonTrace.Catalog.Market
import TonTrace.Catalog.Plain
import TonTrace.Catalog.Billing
import TonTrace.Catalog.Staking
import TonTrace.Catalog.Transfer

/-! The rules in their order of precedence.

Special rules come before general ones. In particular an immediate withdrawal
is tried before a withdrawal request, which would match it too, and the
transfers come before the rules that look for recognised transfers.
-/

set_option autoImplicit false

namespace TonTrace

structure PatternGroups where
  auctions : Bool := true
  nfts : Bool := true
  jettons : Bool := true
  staking : Bool := true
  domains : Bool := true
  exchanges : Bool := true
  subscriptions : Bool := true
  invoices : Bool := true
  gasRelays : Bool := true
  /-- Calls of contracts and transfers of TON. -/
  plain : Bool := true
  deriving DecidableEq

namespace Catalog

def group (enabled : Bool) (rules : List Rule) : List Rule := if enabled then rules else []

def rules (groups : PatternGroups) : List Rule :=
  group groups.auctions [fragmentBid] ++
  group groups.nfts [nftTransfer, nftPurchase] ++
  group groups.jettons [jettonTransfer, abortedJettonTransfer, jettonBurn] ++
  group groups.staking [whalesWithdrawal, whalesWithdrawalRequest, whalesDeposit, tfDeposit,
    tfWithdrawalRequest, tonstakersDeposit, electionDeposit, electionRecovery] ++
  group groups.domains [domainRenewal] ++
  group groups.exchanges [stonfiSwap, dedustSwap, stonfiLiquidityDeposit] ++
  group groups.subscriptions [subscription, unsubscription] ++
  group groups.invoices [tonInvoice, jettonInvoice] ++
  group groups.gasRelays [gasRelay] ++
  group groups.plain [contractCall, tonTransfer]

end Catalog

end TonTrace
