import Mathlib.Algebra.BigOperators.Group.Finset.Piecewise
import Mathlib.Data.Finset.Option
import TonTrace.Proofs.Catalog

/-! The jetton balances of a ledger, what an event changes in them, and the
amounts that a transaction's body can move at most. A correction is exact when
the balance and the amount are in range together. -/

set_option autoImplicit false

namespace TonTrace

namespace JettonDelta

abbrev bound : Nat := 0x7fffffffffffffffffffffffffffffff

abbrev Fits (x : Int) : Prop :=
  Ranged.Fits (-0x80000000000000000000000000000000) 0x7fffffffffffffffffffffffffffffff x

theorem fits_of_natAbs_le {x : Int} (small : x.natAbs ≤ bound) : Fits x := by
  constructor <;> simp only [bound] at small <;> omega

end JettonDelta

namespace JettonAmount

def units (amount : JettonAmount) : Nat := amount.val.toNat

variable {amount : JettonAmount}

theorem val_eq_units (amount : JettonAmount) : amount.val = amount.units :=
  (Int.toNat_of_nonneg amount.lo_le).symm

theorem val_credit (small : amount.units ≤ JettonDelta.bound) : amount.credit.val = amount.units := by
  rw [credit, val_eq_units]
  exact (Ranged.val_clamp_iff _).mpr (JettonDelta.fits_of_natAbs_le (by simpa using small))

theorem val_debit (small : amount.units ≤ JettonDelta.bound) : amount.debit.val = -amount.units := by
  rw [debit, val_credit small]
  exact (Ranged.val_clamp_iff _).mpr (JettonDelta.fits_of_natAbs_le (by simpa using small))

end JettonAmount

namespace AccountFlow

def jetton (entry : AccountFlow) (master : Address) : JettonDelta :=
  (entry.jettons.find? master).getD 0

theorem getD_jettonBalance (balance : Option JettonDelta) (change : JettonDelta) :
    (jettonBalance balance change).getD 0 = (balance.getD 0).saturatingAdd change := by
  simp only [jettonBalance]
  split
  · simp [*]
  · rfl

theorem jetton_merge (entry other : AccountFlow) (master : Address) :
    (entry.merge other).jetton master = (entry.jetton master).saturatingAdd (other.jetton master) := by
  rw [jetton, merge, AddressMap.find?_merge, jetton, jetton]
  cases other.jettons.find? master with
  | none => exact (Ranged.saturatingAdd_zero _).symm
  | some added => exact getD_jettonBalance _ _

theorem jetton_addJetton (entry : AccountFlow) (master other : Address) (change : JettonDelta) :
    (entry.addJetton master change).jetton other =
      if master = other then (entry.jetton other).saturatingAdd change else entry.jetton other := by
  rw [jetton, addJetton, AddressMap.find?_alter]
  split
  case isTrue same =>
    subst same
    exact getD_jettonBalance _ _
  case isFalse => rfl

end AccountFlow

namespace Flow

def jetton (flow : Flow) (account master : Address) : Int := ((flow.entry account).jetton master).val

def jettonOf (account master : Address) (flow : Flow) : Int := flow.jetton account master

theorem additive_jetton (account master : Address) :
    Additive (jettonOf account master) JettonDelta.bound :=
  additive_entry JettonDelta.fits_of_natAbs_le (·.jetton master) rfl
    (fun entry other => entry.jetton_merge other master) account

variable {flow : Flow} {account master : Address} {amount : JettonAmount}

theorem jetton_update_addJetton {change : JettonDelta}
    (fits : JettonDelta.Fits (flow.jetton account master + change.val)) (holder jetton : Address) :
    (flow.update account (.addJetton master change)).jetton holder jetton =
      flow.jetton holder jetton + if account = holder ∧ master = jetton then change.val else 0 := by
  rw [Flow.jetton, entry_update]
  by_cases same : account = holder
  · subst same
    rw [if_pos rfl, AccountFlow.jetton_addJetton]
    by_cases own : master = jetton
    · subst own
      simpa [Flow.jetton] using (Ranged.val_saturatingAdd_iff _ _).mpr fits
    · simp [own, Flow.jetton]
  · simp [same, Flow.jetton]

theorem jetton_update (flow : Flow) {change : AccountFlow → AccountFlow}
    (keeps : ∀ entry, (change entry).jettons = entry.jettons) (holder jetton : Address) :
    (flow.update account change).jetton holder jetton = flow.jetton holder jetton := by
  rw [Flow.jetton, entry_update]
  split
  · rw [AccountFlow.jetton, keeps]
    rfl
  · rfl

theorem jetton_addTon (amount : Nanotons) (flow : Flow) (holder jetton : Address) :
    (flow.addTon account amount).jetton holder jetton = flow.jetton holder jetton := by
  rw [addTon, jetton_update]
  exact fun _ => rfl

theorem jetton_addFee (fee : Nanotons) (flow : Flow) (holder jetton : Address) :
    (flow.addFee account fee).jetton holder jetton = flow.jetton holder jetton := by
  rw [addFee, jetton_update]
  exact fun _ => rfl

theorem jetton_flowOf (tx : Transaction) (holder jetton : Address) :
    (Cluster.flowOf tx).jetton holder jetton = 0 := by
  unfold Cluster.flowOf
  split
  · rw [jetton_addFee]
    rfl
  · split
    · rw [jetton_addTon, jetton_addFee]
      rfl
    · rw [jetton_addTon, jetton_addTon, jetton_addFee]
      rfl

theorem jetton_addNft (owner : Address) (flow : Flow) (holder jetton : Address) :
    (flow.addNft owner).jetton holder jetton = flow.jetton holder jetton := by
  rw [addNft, jetton_update]
  exact fun _ => rfl

theorem jetton_removeNft (owner : Address) (flow : Flow) (holder jetton : Address) :
    (flow.removeNft owner).jetton holder jetton = flow.jetton holder jetton := by
  rw [removeNft, jetton_update]
  exact fun _ => rfl

theorem jetton_addJettons (small : amount.units ≤ JettonDelta.bound)
    (fits : JettonDelta.Fits (flow.jetton account master + amount.units)) (holder jetton : Address) :
    (flow.addJettons account master amount).jetton holder jetton =
      flow.jetton holder jetton + if account = holder ∧ master = jetton then (amount.units : Int) else 0 := by
  have credited := JettonAmount.val_credit small
  rw [addJettons, jetton_update_addJetton (by rwa [credited]), credited]

theorem jetton_removeJettons (small : amount.units ≤ JettonDelta.bound)
    (fits : JettonDelta.Fits (flow.jetton account master - amount.units)) (holder jetton : Address) :
    (flow.removeJettons account master amount).jetton holder jetton =
      flow.jetton holder jetton - if account = holder ∧ master = jetton then (amount.units : Int) else 0 := by
  have debited := JettonAmount.val_debit small
  rw [removeJettons, jetton_update_addJetton (by rwa [debited]), debited]
  split <;> omega

end Flow

namespace Event

/-- What the event changes in the balance of a jetton that an account holds. Only a transfer that
succeeded, a burn that was confirmed and a stake for which a liquid jetton was minted change any. -/
def jettonChange (account master : Address) : Event → Int
  | .jettonTransfer transfer =>
    if transfer.success ∧ transfer.master = some master then
      (if transfer.recipient = some account then (transfer.amount.units : Int) else 0) -
        if transfer.sender = some account then (transfer.amount.units : Int) else 0
    else 0
  | .jettonBurn burn =>
    if burn.success ∧ burn.detail.jetton = some master ∧ burn.detail.sender = account then
      -burn.detail.amount.units
    else 0
  | .stakeDeposit deposit =>
    if deposit.liquidJetton = some master ∧ deposit.liquidOwner.getD deposit.detail.staker = account then
      deposit.liquidAmount.units
    else 0
  | _ => 0

def jettonMoved : Event → Nat
  | .jettonTransfer transfer => if transfer.success then transfer.amount.units else 0
  | .jettonBurn burn => if burn.success then burn.detail.amount.units else 0
  | .stakeDeposit deposit => if deposit.liquidJetton.isSome then deposit.liquidAmount.units else 0
  | _ => 0

def jettonSupply (master : Address) : Event → Int
  | .jettonBurn burn =>
    if burn.success ∧ burn.detail.jetton = some master then -burn.detail.amount.units else 0
  | .stakeDeposit deposit =>
    if deposit.liquidJetton = some master then deposit.liquidAmount.units else 0
  | _ => 0

def jettonHolders : Event → Finset Address
  | .jettonTransfer transfer => transfer.sender.toFinset ∪ transfer.recipient.toFinset
  | .jettonBurn burn => {burn.detail.sender}
  | .stakeDeposit deposit => {deposit.liquidOwner.getD deposit.detail.staker}
  | _ => ∅

def TwoSided (event : Event) : Prop :=
  ∀ transfer, event = .jettonTransfer transfer → transfer.success →
    transfer.sender.isSome ∧ transfer.recipient.isSome

theorem sum_ite_holder (counts : Prop) [Decidable counts] (holder : Address) (units : Int)
    (accounts : Finset Address) :
    (∑ account ∈ accounts, if counts ∧ holder = account then units else 0) =
      if counts ∧ holder ∈ accounts then units else 0 := by
  by_cases counts
  · simp [*, Finset.sum_ite_eq]
  · simp [*]

theorem sum_jettonChange_transfer (transfer : JettonTransfer) (master : Address)
    (accounts : Finset Address) :
    ∑ account ∈ accounts, (Event.jettonTransfer transfer).jettonChange account master =
      if transfer.success ∧ transfer.master = some master then
        (if transfer.recipient.any (· ∈ accounts) then (transfer.amount.units : Int) else 0) -
          if transfer.sender.any (· ∈ accounts) then (transfer.amount.units : Int) else 0
      else 0 := by
  have ends : ∀ (holder : Option Address) (units : Int),
      (∑ account ∈ accounts, if holder = some account then units else 0) =
        if holder.any (· ∈ accounts) then units else 0 := by
    intro holder units
    cases holder with
    | none => simp
    | some holder => simp [Finset.sum_ite_eq]
  simp only [jettonChange]
  split
  · rw [Finset.sum_sub_distrib, ends, ends]
  · exact Finset.sum_const_zero

theorem sum_jettonChange_burn (burn : Outcome Detail.JettonBurn) (master : Address)
    (accounts : Finset Address) :
    ∑ account ∈ accounts, (Event.jettonBurn burn).jettonChange account master =
      if (burn.success ∧ burn.detail.jetton = some master) ∧ burn.detail.sender ∈ accounts then
        (-burn.detail.amount.units : Int)
      else 0 := by
  rw [← sum_ite_holder]
  simp only [jettonChange, and_assoc]

theorem sum_jettonChange_stake (deposit : StakeDeposit) (master : Address)
    (accounts : Finset Address) :
    ∑ account ∈ accounts, (Event.stakeDeposit deposit).jettonChange account master =
      if deposit.liquidJetton = some master ∧
          deposit.liquidOwner.getD deposit.detail.staker ∈ accounts then
        (deposit.liquidAmount.units : Int)
      else 0 := sum_ite_holder _ _ _ _

theorem natAbs_sum_jettonChange_le (event : Event) (master : Address) (accounts : Finset Address) :
    (∑ account ∈ accounts, event.jettonChange account master).natAbs ≤ event.jettonMoved := by
  cases event with
  | jettonTransfer transfer =>
    rw [sum_jettonChange_transfer, jettonMoved]
    split
    case isTrue counts =>
      rw [if_pos counts.1]
      -- A transfer adds its amount once at most, and takes it once at most.
      split <;> split <;> omega
    case isFalse => exact Nat.zero_le _
  | jettonBurn burn =>
    rw [sum_jettonChange_burn, jettonMoved]
    split
    case isTrue counts =>
      rw [if_pos counts.1.1]
      omega
    case isFalse => exact Nat.zero_le _
  | stakeDeposit deposit =>
    rw [sum_jettonChange_stake, jettonMoved]
    split
    case isTrue counts =>
      rw [if_pos (by rw [counts.1]; rfl)]
      omega
    case isFalse => exact Nat.zero_le _
  | _ => simp [jettonChange]

theorem natAbs_jettonChange_le (event : Event) (account master : Address) :
    (event.jettonChange account master).natAbs ≤ event.jettonMoved := by
  have single := event.natAbs_sum_jettonChange_le master {account}
  rwa [Finset.sum_singleton] at single

/-- What goes from one account to another cancels out, so all holders together gain what is minted
and lose what is burnt. -/
theorem sum_jettonChange_eq {event : Event} (sides : event.TwoSided) (master : Address)
    {accounts : Finset Address} (all : event.jettonHolders ⊆ accounts) :
    ∑ account ∈ accounts, event.jettonChange account master = event.jettonSupply master := by
  cases event with
  | jettonTransfer transfer =>
    rw [sum_jettonChange_transfer]
    change _ = (0 : Int)
    split
    case isTrue counts =>
      -- Both ends are among the accounts, so the amount is added once and taken once.
      obtain ⟨sent, received⟩ := sides transfer rfl counts.1
      obtain ⟨sender, sent⟩ := Option.isSome_iff_exists.mp sent
      obtain ⟨recipient, received⟩ := Option.isSome_iff_exists.mp received
      have first : sender ∈ accounts := all (by simp [jettonHolders, sent])
      have second : recipient ∈ accounts := all (by simp [jettonHolders, received])
      simp [sent, received, first, second]
    case isFalse => rfl
  | jettonBurn burn =>
    have holder : burn.detail.sender ∈ accounts := all (Finset.mem_singleton_self _)
    rw [sum_jettonChange_burn, jettonSupply]
    simp only [holder, and_true]
  | stakeDeposit deposit =>
    have holder : deposit.liquidOwner.getD deposit.detail.staker ∈ accounts :=
      all (Finset.mem_singleton_self _)
    rw [sum_jettonChange_stake, jettonSupply]
    simp only [holder, and_true]
  | _ => exact Finset.sum_const_zero

end Event

end TonTrace
