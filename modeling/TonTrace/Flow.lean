import TonTrace.AddressMap

/-! The ledger of a set of transactions: what each account gained and lost.

TON and fees clamp at 64 bits and jetton balances at 128. NFTs are only
counted, by plain sums. A jetton balance that comes back to zero leaves the ledger.
-/

set_option autoImplicit false

namespace TonTrace

/-- How many NFTs an account received and sent. A ledger keeps the counts in words of 64 bits, which
plain sums may leave: `Flow.mergeChecked` refuses those that do, and agrees with `Flow.merge` on the
others. -/
structure NftCount where
  added : Nat := 0
  removed : Nat := 0
  deriving DecidableEq

structure AccountFlow where
  /-- The net change in TON, fees already taken off. -/
  ton : Nanotons := 0
  fees : Nanotons := 0
  jettons : AddressMap JettonDelta := .empty
  nfts : NftCount := {}

namespace AccountFlow

instance : Inhabited AccountFlow := ⟨{}⟩

/-- The balance after a change; absent when it is zero. -/
def jettonBalance (balance : Option JettonDelta) (change : JettonDelta) : Option JettonDelta :=
  let sum := (balance.getD 0).saturatingAdd change
  if sum = 0 then none else some sum

def addJetton (master : Address) (change : JettonDelta) (flow : AccountFlow) : AccountFlow :=
  { flow with jettons := flow.jettons.alter master fun balance => jettonBalance balance change }

def merge (flow other : AccountFlow) : AccountFlow where
  ton := flow.ton.saturatingAdd other.ton
  fees := flow.fees.saturatingAdd other.fees
  jettons := flow.jettons.merge jettonBalance other.jettons
  nfts := ⟨flow.nfts.added + other.nfts.added, flow.nfts.removed + other.nfts.removed⟩

end AccountFlow

structure Flow where
  accounts : AddressMap AccountFlow

namespace Flow

def empty : Flow := ⟨.empty⟩

instance : Inhabited Flow := ⟨empty⟩

def get? (flow : Flow) (account : Address) : Option AccountFlow := flow.accounts.find? account

/-- Change the entry of an account, which starts empty. -/
def update (account : Address) (change : AccountFlow → AccountFlow) (flow : Flow) : Flow :=
  ⟨flow.accounts.alter account fun entry => some (change (entry.getD {}))⟩

def addTon (account : Address) (amount : Nanotons) : Flow → Flow :=
  update account fun entry => { entry with ton := entry.ton.saturatingAdd amount }

def addFee (account : Address) (fee : Nanotons) : Flow → Flow :=
  update account fun entry =>
    { entry with ton := entry.ton.saturatingSub fee, fees := entry.fees.saturatingAdd fee }

def addJettons (account master : Address) (amount : JettonAmount) : Flow → Flow :=
  update account (AccountFlow.addJetton master amount.credit)

def removeJettons (account master : Address) (amount : JettonAmount) : Flow → Flow :=
  update account (AccountFlow.addJetton master amount.debit)

def addNft (account : Address) : Flow → Flow :=
  update account fun entry => { entry with nfts.added := entry.nfts.added + 1 }

def removeNft (account : Address) : Flow → Flow :=
  update account fun entry => { entry with nfts.removed := entry.nfts.removed + 1 }

def merge (flow other : Flow) : Flow :=
  ⟨flow.accounts.merge (fun entry added => some ((entry.getD {}).merge added)) other.accounts⟩

/-- The TON changes of all accounts, added in address order; absent when a partial sum is too large. -/
def totalTon? (flow : Flow) : Option Nanotons := Ranged.sum? (flow.accounts.values.map (·.ton))

def totalFees? (flow : Flow) : Option Nanotons := Ranged.sum? (flow.accounts.values.map (·.fees))

def totalJettons? (flow : Flow) (master : Address) : Option JettonDelta :=
  Ranged.sum? (flow.accounts.values.filterMap fun entry => entry.jettons.find? master)

end Flow

end TonTrace
